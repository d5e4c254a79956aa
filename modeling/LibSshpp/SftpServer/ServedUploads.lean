import LibSshpp.SftpServer.ServedSessions

/-!
`sftp::try_upload` with this server at the other end. What can be read of the local file is what
the path leads to on the server afterwards; apart from that file nothing changes there, and a
file that may not be overwritten does not change either.
-/

set_option autoImplicit false
set_option relaxedAutoImplicit false

namespace LibSshpp.SftpServer

open Posix Sftp Program

/-- An upload between two rounds. -/
structure ServedUpload where
  stream : InStream
  file : ServedStream

namespace ServedUpload

variable (table : HandleTable) (options : Options)

def read (len : ℕ) : StateM ServedUpload (Result Bytes) := fun state ↦
  (.ok (state.stream.read len).1, { state with stream := (state.stream.read len).2 })

/-- `File::try_write_all`. -/
def write (data : Bytes) : StateM ServedUpload (Result Unit) := fun state ↦
  (((ServedStream.ops table options).tryWriteAll data state.file).1,
    { state with file := ((ServedStream.ops table options).tryWriteAll data state.file).2 })

/-- The condition of the loop, with the length of its buffer. -/
def want (chunkSize : ℕ) (state : ServedUpload) (_ : ℕ) : Option ℕ :=
  if state.stream.failed then none else some chunkSize

/-- The loop of `try_upload`. Each round but the last one reads something of the local file. -/
def loop (opts : TransferOptions) : StateM ServedUpload (Result ℕ) := fun state ↦
  copyLoop (want opts.chunkSize) read (write table options) (opts.cancelled "try_upload")
    (state.stream.content.length + 1) 0 state

end ServedUpload

/-- `sftp::try_upload`. The `File` is closed on every way out. -/
def ServedSession.tryUpload (table : HandleTable) (options : Options) (session : ServedSession)
    (source : LocalFile) (remote : RemotePath) (opts : TransferOptions) :
    Result ℕ × ServedSession :=
  match if source.canOpen then source.content else none with
  | none =>
    (.error {
      code := .ssh .invalidArgument, message := "cannot open " ++ source.path
      operation := "try_upload" }, session)
  | some content =>
    match session.tryOpen table options remote (uploadMode opts) (uploadPerms source opts) with
    | (.error info, session) => (.error info, session)
    | (.ok file, session) =>
      let (result, state) := ServedUpload.loop table options opts
        { stream := { content, readable := source.ioLimit }, file }
      (result, session.close table options state.file)

/-! ### The file at both ends -/

/-- Both ends have the same open file, and of the server's files only this one has changed. -/
structure Fed (table : HandleTable) (opened : ServedStream) (target : OpenFile) (fs : FileSystem)
    (stream : ServedStream) (remote : RemoteFile) : Prop where
  shows : stream.Shows table target remote
  rests : Rests table opened stream
  only : OnlyFile target.loc target.ino fs stream.file.world.fs

variable {table : HandleTable} {options : Options} {opened stream : ServedStream}
  {target : OpenFile} {fs : FileSystem} {remote : RemoteFile}

/-- A WRITE changes the file behind its handle at most. -/
theorem onlyFile_write (table : HandleTable) (options : Options) (message : ClientMessage)
    {world : World} (htype : message.type = fxpWrite)
    (h : OpensFile table world message.handle target)
    (honly : OnlyFile target.loc target.ino fs world.fs) :
    OnlyFile target.loc target.ino fs (serveMessage table options message world).2.fs := by
  by_cases hwrites : ∃ file, WritesTo table options world message file
  · obtain ⟨file, hwrites⟩ := hwrites
    obtain rfl := h.unique hwrites.held
    rw [(write_stores htype hwrites).2]
    exact honly.trans (OnlyFile.setData _ _ _ _)
  · rw [(write_refused htype (not_exists.mp hwrites)).2]
    exact honly

theorem scripts_fed_tryWrite (data : Bytes) :
    Scripts RemoteFile.feed (Fed table opened target fs) (ServedStream.tryWrite table options data)
      (RemoteFile.tryWrite data) := by
  let inv (stream : ServedStream) : Prop := Rests table opened stream ∧
    OpensFile table stream.file.world stream.file.handle target ∧
      OnlyFile target.loc target.ino fs stream.file.world.fs
  have hkept : Keeps inv (ServedStream.tryWrite table options data) :=
    tryWrite_keeps fun stream offset eof h ↦ by
      obtain ⟨hrests, hopens, honly⟩ := h
      have hkeeps := write_keepsOpen table options stream.file.world
        (rfl : (stream.file.writeRequest data).type = fxpWrite)
      exact ⟨hrests.request hkeeps offset eof,
        (ServedFile.opensFile_congr hkeeps.fds hkeeps.slots).mpr hopens,
        onlyFile_write table options (stream.file.writeRequest data) rfl hopens honly⟩
  have htrue : Keeps (fun _ : RemoteFile ↦ True) (RemoteFile.tryWrite data) := fun _ _ ↦ trivial
  have hwrites : Scripts RemoteFile.feed (ServedStream.Shows table target)
      (ServedStream.tryWrite table options data) (RemoteFile.tryWrite data) :=
    ServedStream.scripts_tryWrite data
  have hscripts := hwrites.keeping hkept htrue fun _ _ ↦ Iff.rfl
  intro stream remote h
  obtain ⟨script, after, ⟨hshows, ⟨hrests, -, honly⟩, -⟩, hscripted⟩ :=
    hscripts stream remote ⟨h.shows, ⟨h.rests, h.shows.opens, h.only⟩, trivial⟩
  exact ⟨script, after, ⟨hshows, hrests, honly⟩, hscripted⟩

/-! ### The upload at both ends -/

/-- The upload to a server whose answers to come are the given ones. -/
def feedUpload (state : Upload) (replies : List Sftp.Reply) : Upload :=
  { state with file := state.file.feed replies }

/-- Both uploads have come equally far. -/
def FedUpload (table : HandleTable) (opened : ServedStream) (target : OpenFile) (fs : FileSystem)
    (state : ServedUpload) (other : Upload) : Prop :=
  Fed table opened target fs state.file other.file ∧ state.stream = other.stream

theorem scripts_upload_loop (opts : TransferOptions) :
    Scripts feedUpload (FedUpload table opened target fs) (ServedUpload.loop table options opts)
      (Upload.loop opts) := by
  have hread (len : ℕ) : Scripts feedUpload (FedUpload table opened target fs)
      (ServedUpload.read len) (Upload.read len) :=
    Scripts.step fun state shown h ↦ by
      refine ⟨{ shown with stream := (shown.stream.read len).2 },
        ⟨h.1, congrArg (fun stream ↦ (stream.read len).2) h.2⟩, fun rest ↦ ?_⟩
      rw [ServedUpload.read, h.2]
      rfl
  have hwrite (data : Bytes) : Scripts feedUpload (FedUpload table opened target fs)
      (ServedUpload.write table options data) (Upload.write data) :=
    Scripts.onPart ServedUpload.file (fun state file ↦ { state with file := file })
      Upload.file (fun shown file ↦ { shown with file := file })
      (Scripts.writeAll scripts_fed_tryWrite data)
      (fun _ _ h ↦ h.1) (fun _ _ _ _ h hafter ↦ ⟨hafter, h.2⟩) (fun _ _ ↦ rfl)
      fun _ _ _ _ ↦ rfl
  have hloops (rounds : ℕ) : Scripts feedUpload (FedUpload table opened target fs)
      (copyLoop (ServedUpload.want opts.chunkSize) ServedUpload.read
        (ServedUpload.write table options) (opts.cancelled "try_upload") rounds 0)
      (copyLoop (Upload.want opts.chunkSize) Upload.read Upload.write
        (opts.cancelled "try_upload") rounds 0) := by
    refine Scripts.copyLoop _ ?_ (fun _ _ len _ ↦ hread len) hwrite rounds 0
    intro state shown rest total h
    rw [ServedUpload.want, h.2]
    rfl
  intro state shown h
  have hserved : ServedUpload.loop table options opts state =
      copyLoop (ServedUpload.want opts.chunkSize) ServedUpload.read
        (ServedUpload.write table options) (opts.cancelled "try_upload")
        (shown.stream.content.length + 1) 0 state := by
    rw [← h.2]
    rfl
  obtain ⟨script, after, hafter, hscripted⟩ :=
    hloops (shown.stream.content.length + 1) state shown h
  refine ⟨script, after, ?_, fun rest ↦ ?_⟩
  · rw [hserved]
    exact hafter
  · rw [hserved]
    exact hscripted rest

/-! ### Whole uploads -/

/-- The session as the client's model has it, with what is at the path before the upload. -/
def ServedSession.asUpload (session : ServedSession) (before : Option Bytes)
    (replies : List Sftp.Reply) : SftpSession where
  isOpen := session.isOpen
  content := before
  lastError := session.lastError
  maxLength := session.maxLength
  maxLength_pos := session.maxLength_pos
  replies := replies

variable {session : ServedSession} {path : RemotePath} {canon : Path} {done : Done OpenFile}

/-- The attributes of the file, which no upload looks at. -/
def uploadAttributes (before : Option Bytes) (perms : UInt32) : NativeAttributes :=
  match before with
  | none => { permissions := perms }
  | some _ => {}

theorem tryOpen_asUpload {before : Option Bytes} {opts : TransferOptions} {perms : UInt32}
    (hopen : session.isOpen = true) (hfree : opts.overwrite = .fail → before = none)
    (replies : List Sftp.Reply) :
    (session.asUpload before replies).tryOpen (uploadMode opts) perms =
      .ok ((session.asUpload before replies).opened [] (uploadAttributes before perms)) := by
  have hnot : ¬ (session.asUpload before replies).isOpen = false := by
    change ¬ session.isOpen = false
    rw [hopen]
    exact Bool.noConfusion
  rw [SftpSession.tryOpen, if_neg hnot]
  cases before with
  | none => rfl
  | some content =>
    cases hoverwrite : opts.overwrite with
    | fail => cases hfree hoverwrite
    | replace =>
      simp [SftpSession.sftpOpen, ServedSession.asUpload, uploadMode, hoverwrite,
        uploadAttributes]

/-- What the server opens for an upload is a regular file, and empty. -/
theorem OpensTo.upload {opts : TransferOptions} {perms : UInt32} {start : World}
    (h : OpensTo options (openRequest path (uploadMode opts) perms) start canon done)
    (hbacked : start.fs.Backed) :
    OpensFileAt start.fs canon (openModeToPosix (uploadMode opts)) done ∧
      done.value.isDir = false ∧ (done.fs.inode done.value.ino).data = [] ∧
      (opts.overwrite = .fail → start.fs.fileAt canon = none ∧
        done.value.ino = start.fs.inodes.length) := by
  have hopens := h.opens
  rw [flags_openRequest] at hopens
  have hregular := isFile_of_creat hopens rfl
  have hopensAt := opensFileAt_of_openFile hopens hregular
  have hfresh : (openModeToPosix (uploadMode opts)).trunc = true ∨
      (openModeToPosix (uploadMode opts)).excl = true := by
    cases hoverwrite : opts.overwrite <;> simp [openModeToPosix, uploadMode, hoverwrite]
  refine ⟨hopensAt, hregular, hopensAt.emptied hbacked rfl hfresh, fun hfail ↦ ?_⟩
  have hexcl : (openModeToPosix (uploadMode opts)).excl = true := by
    simp [openModeToPosix, uploadMode, hfail]
  exact ⟨hopensAt.fileAt_of_excl rfl hexcl, (hopensAt.created rfl hexcl).2⟩

/-- Both ends once a file was opened for an upload. -/
theorem OpenedFor.fed {opts : TransferOptions} {perms : UInt32}
    (h : OpenedFor table options (openRequest path (uploadMode opts) perms) session canon done
      opened) (hsound : session.world.Sound table) (before : Option Bytes) :
    Fed table opened done.value done.fs opened
      ((session.asUpload before []).opened [] (uploadAttributes before perms)) := by
  obtain ⟨-, -, hempty, -⟩ := h.opens.upload hsound.backed.fs
  have hplain : (posixOpenFlags (openRequest path (uploadMode opts) perms).flags).append =
      false := by
    rw [flags_openRequest]
    rfl
  have hopenOn := h.openOn hplain
  refine ⟨⟨h.isOpen.symm, ?_, h.maxLength.symm, hopenOn.opens, hopenOn.plain, ?_, hopenOn.backed,
    hopenOn.whole, fun hmark ↦ ?_⟩, rests_refl h.sound, h.fs ▸ OnlyFile.refl _ _ _⟩
  · rw [h.offset]
    rfl
  · exact (congrArg (fun fs : FileSystem ↦ (fs.inode done.value.ino).data) h.fs).trans hempty
  · exact Bool.noConfusion (h.unseen.symm.trans hmark)

/-- What an upload leaves of the server that opened a file for it. -/
structure Deposited (table : HandleTable) (session : ServedSession) (canon : Path)
    (done : Done OpenFile) (content : Option Bytes) (after : ServedSession) : Prop where
  same : ∃ world, after = { session with world := world }
  keeps : KeepsOpen session.world after.world
  sound : after.world.Sound table
  only : OnlyFile done.value.loc done.value.ino session.world.fs after.world.fs
  content : after.world.fs.fileAt canon = content

theorem close_fed (hsound : session.world.Sound table) {opts : TransferOptions} {perms : UInt32}
    (h : OpenedFor table options (openRequest path (uploadMode opts) perms) session canon done
      opened) (hfed : Fed table opened done.value done.fs stream remote) (world : World) :
    Deposited table session canon done (some remote.content)
      ({ session with world := world }.close table options stream) := by
  obtain ⟨after, hclose, hfs, hkeeps, hafter⟩ :=
    close_opened_file hsound h hfed.rests { session with world := world }
  obtain ⟨hopensAt, -, -, -⟩ := h.opens.upload hsound.backed.fs
  rw [hclose]
  refine ⟨⟨after, rfl⟩, hkeeps, hafter, ?_, ?_⟩
  · change OnlyFile _ _ _ after.fs
    rw [hfs]
    exact hopensAt.only.trans hfed.only
  · change after.fs.fileAt canon = _
    rw [hfs, (hfed.only.isFile hopensAt.isFile).fileAt]
    exact congrArg some hfed.shows.content

/-- An upload to a file that is opened is one of the client's model. -/
theorem tryUpload_of_opened {source : LocalFile} {opts : TransferOptions} {content : Bytes}
    (hsound : session.world.Sound table)
    (hcontent : (if source.canOpen then source.content else none) = some content)
    (htry : session.tryOpen table options path (uploadMode opts) (uploadPerms source opts) =
      (.ok opened, { session with world := opened.file.world })) (hopen : session.isOpen = true)
    (h : OpenedFor table options (openRequest path (uploadMode opts) (uploadPerms source opts))
      session canon done opened) :
    ∃ replies after, session.tryUpload table options source path opts =
        ((tryUpload (session.asUpload (session.world.fs.fileAt canon) replies) source opts).1,
          after) ∧
      Deposited table session canon done
        (tryUpload (session.asUpload (session.world.fs.fileAt canon) replies) source opts).2.content
        after := by
  let before := session.world.fs.fileAt canon
  have hfree (hfail : opts.overwrite = .fail) : before = none :=
    ((h.opens.upload hsound.backed.fs).2.2.2 hfail).1
  have hfed := h.fed hsound before
  have hloops : Scripts feedUpload (FedUpload table opened done.value done.fs)
      (ServedUpload.loop table options opts) (Upload.loop opts) := scripts_upload_loop opts
  let input : InStream := { content, readable := source.ioLimit }
  obtain ⟨script, after, hafter, hscripted⟩ := hloops { stream := input, file := opened }
    { stream := input
      file := (session.asUpload before []).opened []
        (uploadAttributes before (uploadPerms source opts)) } ⟨hfed, rfl⟩
  have hremote : Upload.loop opts
      { stream := input
        file := (session.asUpload before script).opened []
          (uploadAttributes before (uploadPerms source opts)) } =
        ((ServedUpload.loop table options opts { stream := input, file := opened }).1,
          feedUpload after []) := by
    rw [← hscripted [], List.append_nil]
    rfl
  have hmodel : tryUpload (session.asUpload before script) source opts =
      ((ServedUpload.loop table options opts { stream := input, file := opened }).1,
        { session.asUpload before script with content := some after.file.content }) := by
    unfold tryUpload
    simp only [hcontent, tryOpen_asUpload hopen hfree]
    rw [hremote]
    rfl
  have hserved : session.tryUpload table options source path opts =
      ((ServedUpload.loop table options opts { stream := input, file := opened }).1,
        { session with world := opened.file.world }.close table options
          (ServedUpload.loop table options opts { stream := input, file := opened }).2.file) := by
    unfold ServedSession.tryUpload
    simp only [hcontent, htry]
    rfl
  refine ⟨script, (session.tryUpload table options source path opts).2, ?_, ?_⟩
  · refine Prod.ext ?_ rfl
    rw [hserved]
    exact (congrArg Prod.fst hmodel).symm
  · rw [hserved, hmodel]
    exact close_fed hsound h hafter.1 opened.file.world

/-- What an upload may change on the server: one file, and none that was there where nothing may
be overwritten. -/
def Spares (opts : TransferOptions) (before after : FileSystem) : Prop :=
  ∃ loc ino, OnlyFile loc ino before after ∧
    (opts.overwrite = .fail → before = after ∨ before.inodes.length ≤ ino)

theorem spares_refl (opts : TransferOptions) (fs : FileSystem) : Spares opts fs fs :=
  ⟨[], 0, OnlyFile.refl _ _ _, fun _ ↦ .inl rfl⟩

theorem Spares.fileAt {opts : TransferOptions} {before after : FileSystem}
    (h : Spares opts before after) (hbacked : before.Backed) (hfail : opts.overwrite = .fail)
    {path : Path} {data : Bytes} (hfile : before.fileAt path = some data) :
    after.fileAt path = some data := by
  obtain ⟨loc, ino, honly, hnew⟩ := h
  rcases hnew hfail with rfl | hnew
  · exact hfile
  · exact honly.fileAt hbacked hnew hfile

theorem OpensTo.spares {opts : TransferOptions} {perms : UInt32} {start : World}
    {after : FileSystem}
    (h : OpensTo options (openRequest path (uploadMode opts) perms) start canon done)
    (hbacked : start.fs.Backed)
    (honly : OnlyFile done.value.loc done.value.ino start.fs after) :
    Spares opts start.fs after :=
  ⟨_, _, honly, fun hfail ↦ .inr (((h.upload hbacked).2.2.2 hfail).2.symm.le)⟩

/-- Every upload is one of the client's model. -/
theorem tryUpload_conforms (table : HandleTable) (options : Options)
    (hsound : session.world.Sound table) (source : LocalFile) (path : RemotePath)
    (opts : TransferOptions) :
    ∃ sftp after, session.tryUpload table options source path opts =
        ((tryUpload sftp source opts).1, after) ∧
      KeepsOpen session.world after.world ∧ after.world.Sound table ∧
      Spares opts session.world.fs after.world.fs ∧
      ((∀ n, (tryUpload sftp source opts).1 ≠ .ok n) ∨ ∃ canon,
        Resolves session.world.fs options.root (cString path) canon ∧
        after.world.fs.fileAt canon = (tryUpload sftp source opts).2.content) := by
  cases hcontent : if source.canOpen then source.content else none with
  | none =>
    refine ⟨session.refused 0, session, ?_, keepsOpen_refl _, hsound, spares_refl _ _,
      .inl fun n hok ↦ ?_⟩
    · unfold ServedSession.tryUpload tryUpload
      simp only [hcontent]
    · unfold tryUpload at hok
      simp only [hcontent] at hok
      cases hok
  | some content =>
    rcases tryOpen_cases options hsound path (uploadMode opts) (uploadPerms source opts) with
      ⟨info, world, htry, hwhy, hnot⟩ | ⟨canon, done, opened, htry, hopen, hopened⟩
    · obtain ⟨status, hrefused⟩ := tryOpen_refused hwhy (uploadMode opts) (uploadPerms source opts)
      have hmodel : tryUpload (session.refused status) source opts =
          (.error info, session.refused status) := by
        unfold tryUpload
        simp only [hcontent, hrefused]
      have hspares : Spares opts session.world.fs world.fs := by
        rcases hnot.fs with hfs | ⟨canon, done, hopens, hfs⟩
        · exact hfs ▸ spares_refl _ _
        · exact hfs ▸ hopens.spares hsound.backed.fs (hopens.upload hsound.backed.fs).1.only
      refine ⟨session.refused status, { session with world := world }, ?_, hnot.keeps, hnot.sound,
        hspares, .inl fun n hok ↦ ?_⟩
      · rw [hmodel]
        unfold ServedSession.tryUpload
        simp only [hcontent, htry]
      · rw [hmodel] at hok
        cases hok
    · obtain ⟨replies, after, hrun, hafter⟩ :=
        tryUpload_of_opened hsound hcontent htry hopen hopened
      have hresolves := hopened.opens.resolves
      rw [path_openRequest] at hresolves
      exact ⟨_, after, hrun, hafter.keeps, hafter.sound,
        hopened.opens.spares hsound.backed.fs hafter.only, .inr ⟨canon, hresolves, hafter.content⟩⟩

/-- What can be read of the local file is what the path leads to on the server after an upload
that succeeds. Whatever becomes of an upload, it leaves no descriptor and no handle behind,
changes at most one file, and none that was there if nothing may be overwritten. -/
theorem served_upload_exact (table : HandleTable) (options : Options) (session : ServedSession)
    (hsound : session.world.Sound table) (source : LocalFile) (path : RemotePath)
    (opts : TransferOptions) (hchunk : 0 < opts.chunkSize) :
    let run := session.tryUpload table options source path opts
    KeepsOpen session.world run.2.world ∧
      (∃ loc ino, OnlyFile loc ino session.world.fs run.2.world.fs) ∧
      (opts.overwrite = .fail → ∀ other data, session.world.fs.fileAt other = some data →
        run.2.world.fs.fileAt other = some data) ∧
      ∀ n, run.1 = .ok n → ∃ canon content,
        Resolves session.world.fs options.root (cString path) canon ∧
        source.content = some content ∧ n = (upTo source.ioLimit content).length ∧
        run.2.world.fs.fileAt canon = some (upTo source.ioLimit content) := by
  obtain ⟨sftp, after, hrun, hkeeps, -, hspares, houtcome⟩ :=
    tryUpload_conforms table options hsound source path opts
  have honly : ∃ loc ino, OnlyFile loc ino session.world.fs after.world.fs := by
    obtain ⟨loc, ino, honly, -⟩ := hspares
    exact ⟨loc, ino, honly⟩
  rw [hrun]
  refine ⟨hkeeps, honly, fun hfail other data ↦ hspares.fileAt hsound.backed.fs hfail,
    fun n hok ↦ ?_⟩
  have hupload : tryUpload sftp source opts = (.ok n, (tryUpload sftp source opts).2) :=
    Prod.ext hok rfl
  obtain ⟨content, data, hsource, hdata, hcount, harrived⟩ := tryUpload_ok hupload
  rw [if_neg hchunk.ne'] at hdata
  subst hdata
  rcases houtcome with hnever | ⟨canon, hresolves, hcontent⟩
  · exact absurd hok (hnever n)
  · exact ⟨canon, content, hresolves, hsource, hcount, hcontent.trans harrived⟩

/-- Three bytes for the file `f`, which loses its own. -/
theorem served_upload_exact_single :
    (singleFileSession.tryUpload HandleTable.firstFree srvServer
        { path := "/tmp/f", content := some (ascii "hey") } (ascii "f") { chunkSize := 2 }).1 =
      .ok 3 ∧
    ∃ canon content, Resolves singleFile srvServer.root (cString (ascii "f")) canon ∧
      some (ascii "hey") = some content ∧ 3 = (upTo none content).length ∧
      (singleFileSession.tryUpload HandleTable.firstFree srvServer
        { path := "/tmp/f", content := some (ascii "hey") } (ascii "f")
          { chunkSize := 2 }).2.world.fs.fileAt canon = some (upTo none content) := by
  have hok : (singleFileSession.tryUpload HandleTable.firstFree srvServer
      { path := "/tmp/f", content := some (ascii "hey") } (ascii "f") { chunkSize := 2 }).1 =
        .ok 3 := by decide +kernel
  exact ⟨hok, (served_upload_exact HandleTable.firstFree srvServer singleFileSession
    singleFileSession_sound { path := "/tmp/f", content := some (ascii "hey") } (ascii "f")
    { chunkSize := 2 } (by decide)).2.2.2 3 hok⟩

/-! ### Uploads that succeed -/

/-- The server takes files up to a length. -/
structure Admits (options : Options) (limit : ℕ) : Prop where
  writable : options.readOnly = false
  size : options.maxFileSize ≠ 0 → limit ≤ options.maxFileSize.toNat
  offset : limit < 2 ^ 63

/-- A regular file that so many bytes can still be written to, and nothing that goes wrong. -/
structure Writable (table : HandleTable) (target : OpenFile) (limit left : ℕ)
    (stream : ServedStream) : Prop where
  isOpen : stream.file.isOpen = true
  opens : OpensFile table stream.file.world stream.file.handle target
  access : target.flags.access ≠ .readOnly
  faults : stream.file.world.faults = []
  requests : 0 < stream.file.maxLength
  room : stream.file.offset.toNat + left ≤ limit

variable {limit left : ℕ} {data : Bytes}

theorem not_exceedsLimit (hadmits : Admits options limit)
    (h : Writable table target limit left stream) (hleft : data.length ≤ left) :
    ¬ ExceedsLimit options (stream.file.writeRequest data) := by
  rintro ⟨hlimited, hexceeds⟩
  have hcount : (data.take stream.file.maxLength).length < 2 ^ 32 :=
    (List.length_take_le _ _).trans_lt stream.file.maxLength_lt
  have hlength : (stream.file.writeRequest data).payloadLength.toUInt64 =
      (data.take stream.file.maxLength).length.toUInt64 := by
    refine UInt64.toNat_inj.mp ?_
    change (data.take stream.file.maxLength).length.toUInt32.toUInt64.toNat = _
    rw [UInt32.toNat_toUInt64, UInt32.toNat_ofNat_of_lt' hcount,
      UInt64.toNat_ofNat_of_lt' (hcount.trans (by decide))]
  have hroom := h.room
  have hoffset := hadmits.offset
  have hsum : (stream.file.offset + (data.take stream.file.maxLength).length.toUInt64).toNat =
      stream.file.offset.toNat + (data.take stream.file.maxLength).length :=
    ServedStream.toNat_advanced (by omega) hcount
  rw [hlength] at hexceeds
  have hmore : options.maxFileSize.toNat < (stream.file.offset +
      (data.take stream.file.maxLength).length.toUInt64).toNat := UInt64.lt_iff_toNat_lt.mp hexceeds
  have htake : (data.take stream.file.maxLength).length ≤ data.length := List.length_take_le' _ _
  have hsize := hadmits.size hlimited
  omega

/-- A write of something to such a file takes a part of it. -/
theorem Writable.tryWrite (hadmits : Admits options limit)
    (h : Writable table target limit left stream) (hne : data ≠ []) (hleft : data.length ≤ left) :
    ∃ taken after, stream.tryWrite table options data = (.ok (taken + 1), after) ∧
      taken + 1 ≤ data.length ∧ Writable table target limit (left - (taken + 1)) after := by
  have hopen : ¬ stream.file.isOpen = false := by rw [h.isOpen]; exact Bool.noConfusion
  have hroom := h.room
  have hlimit := hadmits.offset
  have hoffset : stream.file.offset.toNat < 2 ^ 63 := by omega
  have hwrites : WritesTo table options stream.file.world (stream.file.writeRequest data) target :=
    ⟨hadmits.writable, h.opens, not_exceedsLimit hadmits h hleft,
      by rw [fault_of_nil h.faults]; rfl, h.access, toInt64_nonneg hoffset⟩
  have hkeeps := write_keepsOpen table options stream.file.world
    (rfl : (stream.file.writeRequest data).type = fxpWrite)
  have hserved : stream.file.sftpWrite table options data =
      (.ok (data.take stream.file.maxLength).length,
        { stream.file.request table options (stream.file.writeRequest data) with
          offset := stream.file.offset + (data.take stream.file.maxLength).length.toUInt64 }) := by
    rw [ServedFile.sftpWrite, (write_stores rfl hwrites).1]
  have hcount : (data.take stream.file.maxLength).length < 2 ^ 32 :=
    (List.length_take_le _ _).trans_lt stream.file.maxLength_lt
  obtain ⟨taken, htaken⟩ : ∃ taken, (data.take stream.file.maxLength).length = taken + 1 := by
    refine Nat.exists_eq_add_one.mpr ?_
    rw [List.length_take]
    exact lt_min h.requests (List.length_pos_iff.mpr hne)
  rw [htaken] at hserved hcount
  have hle : taken + 1 ≤ data.length := htaken ▸ List.length_take_le' _ _
  refine ⟨taken, stream.asked table options (stream.file.writeRequest data)
    (stream.file.offset + (taken + 1).toUInt64) stream.eof, ?_, hle, h.isOpen,
    (ServedFile.opensFile_congr hkeeps.fds hkeeps.slots).mpr h.opens, h.access,
    List.subset_nil.mp fun fault hfault ↦ h.faults ▸ hkeeps.faults fault hfault, h.requests, ?_⟩
  · rw [ServedStream.tryWrite_of_sftpWrite hopen hserved]
    rfl
  · change (stream.file.offset + (taken + 1).toUInt64).toNat + _ ≤ limit
    rw [ServedStream.toNat_advanced hoffset hcount]
    omega

theorem Writable.tryWriteAll (hadmits : Admits options limit)
    (h : Writable table target limit (data.length + left) stream) :
    ∃ after, (ServedStream.ops table options).tryWriteAll data stream = (.ok (), after) ∧
      Writable table target limit left after := by
  let unwritten (data : Bytes) (file : ServedStream) : Prop :=
    Writable table target limit (data.length + left) file
  have hstep (data : Bytes) (file : ServedStream) (hne : data ≠ []) (hfile : unwritten data file) :
      ∃ taken after, file.tryWrite table options data = (.ok (taken + 1), after) ∧
        unwritten (data.drop (taken + 1)) after := by
    obtain ⟨taken, after, hrun, hle, hafter⟩ :=
      Writable.tryWrite hadmits hfile hne (Nat.le_add_right _ _)
    refine ⟨taken, after, hrun, ?_⟩
    change Writable table target limit ((data.drop (taken + 1)).length + left) after
    rw [List.length_drop, ← Nat.sub_add_comm hle]
    exact hafter
  obtain ⟨after, hrun, hafter⟩ := writeAll_succeeds hstep h
  refine ⟨after, hrun, ?_⟩
  change Writable table target limit ([].length + left) after at hafter
  rwa [List.length_nil, Nat.zero_add] at hafter

/-- What is left of the local file after what was read. -/
def ServedUpload.unread (state : ServedUpload) : Bytes :=
  (Upload.source state.stream).drop state.stream.position

theorem Writable.loop (hadmits : Admits options limit) {opts : TransferOptions}
    (hprogress : ∀ total, opts.cancelled "try_upload" total = none) {state : ServedUpload}
    (h : Writable table target limit state.unread.length state.file) :
    ∃ count after, ServedUpload.loop table options opts state = (.ok count, after) := by
  let inv (state : ServedUpload) : Prop :=
    Writable table target limit state.unread.length state.file
  let held (data : Bytes) (state : ServedUpload) : Prop :=
    Writable table target limit (data.length + state.unread.length) state.file
  have hread (len : ℕ) (state : ServedUpload) (total : ℕ) (hstate : inv state)
      (_ : ServedUpload.want opts.chunkSize state total = some len) :
      ∃ data after, ServedUpload.read len state = (.ok data, after) ∧ held data after := by
    refine ⟨state.unread.take len, { state with stream := (state.stream.read len).2 }, rfl, ?_⟩
    have hunread : ServedUpload.unread { state with stream := (state.stream.read len).2 } =
        state.unread.drop (state.unread.take len).length := by
      rw [ServedUpload.unread, ServedUpload.unread, List.drop_drop]
      rfl
    change Writable table target limit _ state.file
    rw [hunread, List.length_drop, Nat.add_sub_cancel' (List.length_take_le' _ _)]
    exact hstate
  have hwrite (data : Bytes) (state : ServedUpload) (hstate : held data state) :
      ∃ after, ServedUpload.write table options data state = (.ok (), after) ∧ inv after := by
    obtain ⟨file, hrun, hfile⟩ := Writable.tryWriteAll hadmits hstate
    refine ⟨{ state with file := file }, ?_, hfile⟩
    rw [ServedUpload.write, hrun]
  exact copyLoop_carries hread hwrite hprogress _ h

/-- The stream of a file that was just opened for an upload. -/
theorem OpenedFor.writable {opts : TransferOptions} {perms : UInt32}
    (h : OpenedFor table options (openRequest path (uploadMode opts) perms) session canon done
      opened) (hfaults : session.world.faults = []) (limit : ℕ) :
    Writable table done.value limit limit opened := by
  obtain ⟨slot, entry, -, hplaces⟩ := h.places
  have haccess : done.value.flags.access ≠ .readOnly := by
    rw [flags_of_openFile h.opens.opens, flags_openRequest]
    exact fun hread ↦ nomatch hread
  refine ⟨h.isOpen, h.opensFile, haccess, ?_, h.maxLength ▸ session.maxLength_pos, ?_⟩
  · exact List.subset_nil.mp fun fault hfault ↦ hfaults ▸ hplaces.faults fault hfault
  · rw [h.offset]
    exact (Nat.zero_add limit).le

/-- An upload succeeds with nothing in its way. -/
theorem tryUpload_succeeds {source : LocalFile} {opts : TransferOptions} {content : Bytes}
    {slot : ℕ} (hsound : session.world.Sound table) (hopen : session.isOpen = true)
    (hfaults : session.world.faults = []) (hslot : table.pick session.world.slots = some slot)
    (hopens : OpensTo options (openRequest path (uploadMode opts) (uploadPerms source opts))
      session.world canon done)
    (hcan : source.canOpen = true) (hcontent : source.content = some content)
    (hadmits : Admits options (upTo source.ioLimit content).length) (hchunk : 0 < opts.chunkSize)
    (hprogress : ∀ total, opts.cancelled "try_upload" total = none) :
    ∃ after, session.tryUpload table options source path opts =
        (.ok (upTo source.ioLimit content).length, after) ∧
      Deposited table session canon done (some (upTo source.ioLimit content)) after := by
  have hsource : (if source.canOpen then source.content else none) = some content := by
    rw [if_pos hcan, hcontent]
  obtain ⟨opened, htry, hopened⟩ := tryOpen_opens hsound hopen hfaults hopens hslot
  obtain ⟨replies, after, hrun, hafter⟩ :=
    tryUpload_of_opened hsound hsource htry hopen hopened
  have hwritable : Writable table done.value (upTo source.ioLimit content).length
      (ServedUpload.unread { stream := { content, readable := source.ioLimit }
                             file := opened }).length opened :=
    hopened.writable hfaults _
  obtain ⟨count, state, hloop⟩ := @Writable.loop _ _ _ _ hadmits opts hprogress
    { stream := { content, readable := source.ioLimit }, file := opened } hwritable
  have hok : (session.tryUpload table options source path opts).1 = .ok count := by
    unfold ServedSession.tryUpload
    simp only [hsource, htry, hloop]
  rw [hrun] at hok
  have hmodel : tryUpload (session.asUpload (session.world.fs.fileAt canon) replies) source opts =
      (.ok count, (tryUpload (session.asUpload (session.world.fs.fileAt canon) replies) source
        opts).2) := Prod.ext hok rfl
  obtain ⟨other, data, hother, hdata, hcount, harrived⟩ := tryUpload_ok hmodel
  obtain rfl := Option.some.inj (hcontent.symm.trans hother)
  rw [if_neg hchunk.ne'] at hdata
  subst hdata
  rw [harrived] at hafter
  refine ⟨after, ?_, hafter⟩
  rw [hrun]
  exact Prod.ext (hok.trans (congrArg Except.ok hcount)) rfl

end LibSshpp.SftpServer
