import LibSshpp.SftpServer.ServedSessions

/-!
`sftp::try_download` with this server at the other end. Its run is one of the client's model of a
server, so that what is known of downloads there holds of what this server sends; and what the
server has at the path is what arrives.
-/

set_option autoImplicit false
set_option relaxedAutoImplicit false

namespace LibSshpp.SftpServer

open Posix Sftp Program

/-- The bytes of the file behind the handle of a stream. -/
def ServedStream.content (table : HandleTable) (stream : ServedStream) : Bytes :=
  match (table.decode stream.file.handle).bind stream.file.world.slots with
  | none => []
  | some entry =>
    match stream.file.world.fds.lookup entry.fd with
    | none => []
    | some file => stream.file.world.contents file

/-- A download between two rounds. -/
structure ServedDownload where
  stream : ServedStream
  out : OutStream

namespace ServedDownload

variable (table : HandleTable) (options : Options)

def read (len : ℕ) : StateM ServedDownload (Result Bytes) := fun state ↦
  ((state.stream.tryRead table options len).1,
    { state with stream := (state.stream.tryRead table options len).2 })

/-- `out.write`, whose outcome is not looked at. -/
def write (data : Bytes) : StateM ServedDownload (Result Unit) := fun state ↦
  (.ok (), { state with out := state.out.write data })

/-- The loop of `try_download`. Each round but the last one reads something of the file. -/
def loop (opts : TransferOptions) : StateM ServedDownload (Result ℕ) := fun state ↦
  copyLoop (fun _ _ ↦ some opts.chunkSize) (read table options) write
    (opts.cancelled "try_download") ((state.stream.content table).length + 1) 0 state

end ServedDownload

/-- The last step of `try_download`. -/
def ServedStream.preservePermissions (table : HandleTable) (options : Options)
    (transfer : NativeAttributes → NativeAttributes) (opts : TransferOptions)
    (destination : LocalFile) : StateM ServedStream LocalFile := fun stream ↦
  if opts.preservePermissions then
    match stream.tryStat table options transfer with
    | (.error _, stream) => (destination, stream)
    | (.ok attributes, stream) =>
      ({ destination with permissions := some attributes.stdPerms }, stream)
  else (destination, stream)

/-- `sftp::try_download`. The `File` is closed on every way out. -/
def ServedSession.tryDownload (table : HandleTable) (options : Options)
    (transfer : NativeAttributes → NativeAttributes) (session : ServedSession)
    (remote : RemotePath) (destination : LocalFile) (opts : TransferOptions) :
    Result ℕ × LocalFile × ServedSession :=
  if opts.overwrite = .fail ∧ destination.content.isSome then
    (.error {
      code := .ssh .invalidArgument, message := "destination already exists"
      operation := "try_download" }, destination, session)
  else match session.tryOpen table options remote { read := true } 0o600 with
    | (.error info, session) => (.error info, destination, session)
    | (.ok stream, session) =>
      if destination.canOpen = false then
        (.error {
          code := .ssh .invalidArgument, message := "cannot open " ++ destination.path
          operation := "try_download" }, destination, session.close table options stream)
      else
        let (result, state) := ServedDownload.loop table options opts
          { stream, out := { room := destination.ioLimit } }
        let destination := { destination with content := some state.out.content }
        match result with
        | .error info => (.error info, destination, session.close table options state.stream)
        | .ok total =>
          let (destination, stream) :=
            state.stream.preservePermissions table options transfer opts destination
          (.ok total, destination, session.close table options stream)

/-! ### The file at both ends -/

/-- Both ends have the same open file and the same attributes for it, and the server's files are
as they were. -/
structure Seen (table : HandleTable) (transfer : NativeAttributes → NativeAttributes)
    (opened : ServedStream) (target : OpenFile) (fs : FileSystem) (stream : ServedStream)
    (remote : RemoteFile) : Prop where
  shows : stream.Shows table target remote
  rests : Rests table opened stream
  files : stream.file.world.fs = fs
  attributes : remote.attributes = transfer (fillAttributes (fs.statInode target.isDir target.ino))

variable {table : HandleTable} {options : Options}
  {transfer : NativeAttributes → NativeAttributes} {opened stream : ServedStream}
  {target : OpenFile} {fs : FileSystem} {remote : RemoteFile}

theorem tryRead_attributes (remote : RemoteFile) (length : ℕ) :
    (remote.tryRead length).2.attributes = remote.attributes := by
  have hserved := RemoteFile.serveRead_file remote remote.offset (min length remote.maxLength)
  unfold RemoteFile.tryRead RemoteFile.sftpRead
  split_ifs with hopen
  · rfl
  · rcases hread : remote.serveRead remote.offset (min length remote.maxLength) with
      ⟨status | data, served⟩ <;> rw [hread] at hserved <;> rw [show served = _ from hserved]

theorem scripts_seen_tryRead {length : ℕ} (hlength : 0 < length) :
    Scripts RemoteFile.feed (Seen table transfer opened target fs)
      (ServedStream.tryRead table options length) fun remote ↦ remote.tryRead length := by
  have hkept : Keeps (fun stream : ServedStream ↦ Rests table opened stream ∧
      stream.file.world.fs = fs) (ServedStream.tryRead table options length) :=
    fun stream h ↦ ⟨rests_tryRead length stream h.1, fs_tryRead fs length stream h.2⟩
  have hattributes : Keeps (fun remote : RemoteFile ↦ remote.attributes =
      transfer (fillAttributes (fs.statInode target.isDir target.ino)))
      fun remote ↦ remote.tryRead length :=
    fun remote h ↦ (tryRead_attributes remote length).trans h
  have hreads : Scripts RemoteFile.feed (ServedStream.Shows table target)
      (ServedStream.tryRead table options length) fun remote ↦ remote.tryRead length :=
    ServedStream.scripts_tryRead hlength
  have hscripts := hreads.keeping hkept hattributes fun _ _ ↦ Iff.rfl
  intro stream remote h
  obtain ⟨script, after, ⟨hshows, ⟨hrests, hfiles⟩, hattributes⟩, hscripted⟩ :=
    hscripts stream remote ⟨h.shows, ⟨h.rests, h.files⟩, h.attributes⟩
  exact ⟨script, after, ⟨hshows, hrests, hfiles, hattributes⟩, hscripted⟩

/-- The attributes of the file at one end are those at the other. -/
theorem scripts_seen_tryStat :
    Scripts RemoteFile.feed (Seen table transfer opened target fs)
      (ServedStream.tryStat table options transfer) RemoteFile.tryStat := by
  intro stream remote h
  by_cases hopen : stream.file.isOpen = false
  · have hstat : stream.tryStat table options transfer = (.error {
        code := .ssh .invalidHandle, operation := "File::try_stat" }, stream) := if_pos hopen
    refine ⟨[], remote, by rw [hstat]; exact h, fun rest ↦ ?_⟩
    rw [hstat]
    exact if_pos (h.shows.isOpen.trans hopen)
  have hremote : ¬ remote.isOpen = false := h.shows.isOpen ▸ hopen
  obtain ⟨hanswers, hfs, hkeeps⟩ := fstat_answers table options
    (rfl : stream.statRequest.type = fxpFstat) h.shows.opens
  have hseen : Seen table transfer opened target fs
      (stream.asked table options stream.statRequest stream.file.offset stream.eof)
      { remote with offset := stream.file.offset.toNat } :=
    ⟨h.shows.request stream.file.offset hkeeps hfs stream.eof
        fun hend ↦ h.shows.offset ▸ h.shows.eof hend,
      h.rests.request hkeeps _ _, hfs.trans h.files, h.attributes⟩
  rcases hanswers with ⟨-, hanswers⟩ | ⟨text, -, hanswers⟩
  · have hstat : stream.tryStat table options transfer =
        (.ok (attributesFromNative remote.attributes),
          stream.asked table options stream.statRequest stream.file.offset stream.eof) := by
      unfold ServedStream.tryStat
      rw [if_neg hopen, hanswers, h.attributes, h.files]
      rfl
    refine ⟨[.bytes 0], _, by rw [hstat]; exact hseen, fun rest ↦ ?_⟩
    rw [hstat, ← h.shows.offset]
    exact if_neg hremote
  · have hstat : stream.tryStat table options transfer =
        (.error (makeSftpErrorInfo 4 {} "sftp_fstat"),
          stream.asked table options stream.statRequest stream.file.offset stream.eof) := by
      unfold ServedStream.tryStat
      rw [if_neg hopen, hanswers]
      rfl
    refine ⟨[.failure 4], _, by rw [hstat]; exact hseen, fun rest ↦ ?_⟩
    rw [hstat, ← h.shows.offset]
    exact if_neg hremote

theorem content_of_opensFile
    (h : OpensFile table stream.file.world stream.file.handle target) :
    stream.content table = stream.file.world.contents target := by
  obtain ⟨entry, hheld, -, hlookup⟩ := h
  rw [ServedStream.content, hheld]
  simp only [hlookup]

/-! ### The download at both ends -/

/-- The download from a server whose answers to come are the given ones. -/
def feedDownload (state : Download) (replies : List Sftp.Reply) : Download :=
  { state with file := state.file.feed replies }

/-- Both downloads have come equally far. -/
def SeenDownload (table : HandleTable) (transfer : NativeAttributes → NativeAttributes)
    (opened : ServedStream) (target : OpenFile) (fs : FileSystem) (state : ServedDownload)
    (other : Download) : Prop :=
  Seen table transfer opened target fs state.stream other.file ∧ state.out = other.out

theorem scripts_download_loop {opts : TransferOptions} (hchunk : 0 < opts.chunkSize) :
    Scripts feedDownload (SeenDownload table transfer opened target fs)
      (ServedDownload.loop table options opts) (Download.loop opts) := by
  have hread (len : ℕ) (hlen : 0 < len) :
      Scripts feedDownload (SeenDownload table transfer opened target fs)
        (ServedDownload.read table options len) (Download.read len) :=
    Scripts.onPart ServedDownload.stream (fun state stream ↦ { state with stream := stream })
      Download.file (fun shown file ↦ { shown with file := file }) (scripts_seen_tryRead hlen)
      (fun _ _ h ↦ h.1) (fun _ _ _ _ h hafter ↦ ⟨hafter, h.2⟩) (fun _ _ ↦ rfl)
      fun _ _ _ _ ↦ rfl
  have hwrite (data : Bytes) :
      Scripts feedDownload (SeenDownload table transfer opened target fs)
        (ServedDownload.write data) (Download.write data) :=
    Scripts.step fun state shown h ↦
      ⟨{ shown with out := shown.out.write data }, ⟨h.1, congrArg (·.write data) h.2⟩,
        fun _ ↦ rfl⟩
  have hloops (rounds : ℕ) : Scripts feedDownload (SeenDownload table transfer opened target fs)
      (copyLoop (fun _ _ ↦ some opts.chunkSize) (ServedDownload.read table options)
        ServedDownload.write (opts.cancelled "try_download") rounds 0)
      (copyLoop (fun _ _ ↦ some opts.chunkSize) Download.read Download.write
        (opts.cancelled "try_download") rounds 0) := by
    refine Scripts.copyLoop _ ?_ ?_ hwrite rounds 0
    · exact fun _ _ _ _ _ ↦ rfl
    · intro _ _ len hlen
      exact hread len (Option.some.inj hlen ▸ hchunk)
  intro state shown h
  have hrounds : (state.stream.content table).length = shown.file.content.length := by
    rw [content_of_opensFile h.1.shows.opens, h.1.shows.content]
  have hserved : ServedDownload.loop table options opts state =
      copyLoop (fun _ _ ↦ some opts.chunkSize) (ServedDownload.read table options)
        ServedDownload.write (opts.cancelled "try_download")
        (shown.file.content.length + 1) 0 state := by
    rw [← hrounds]
    rfl
  obtain ⟨script, after, hafter, hscripted⟩ := hloops (shown.file.content.length + 1) state shown h
  refine ⟨script, after, ?_, fun rest ↦ ?_⟩
  · rw [hserved]
    exact hafter
  · rw [hserved]
    exact hscripted rest

/-- The last step of a download at both ends. -/
theorem seen_preservePermissions (h : Seen table transfer opened target fs stream remote)
    (options : Options) (opts : TransferOptions) (destination : LocalFile) :
    ∃ script later, Seen table transfer opened target fs
        (stream.preservePermissions table options transfer opts destination).2 later ∧
      preservePermissions opts (remote.feed script) destination =
        (stream.preservePermissions table options transfer opts destination).1 := by
  unfold ServedStream.preservePermissions preservePermissions
  by_cases hpreserve : opts.preservePermissions = true
  · have hscripts : Scripts RemoteFile.feed (Seen table transfer opened target fs)
        (ServedStream.tryStat table options transfer) RemoteFile.tryStat := scripts_seen_tryStat
    obtain ⟨script, later, hlater, hscripted⟩ := hscripts stream remote h
    have hstat := hscripted []
    rw [List.append_nil] at hstat
    refine ⟨script, later, ?_⟩
    rw [if_pos hpreserve, if_pos hpreserve, hstat]
    rcases hrun : stream.tryStat table options transfer with ⟨info | attributes, after⟩ <;>
      rw [hrun] at hlater <;> exact ⟨hlater, rfl⟩
  · refine ⟨[], remote, ?_⟩
    rw [if_neg hpreserve, if_neg hpreserve]
    exact ⟨h, rfl⟩

/-! ### Whole downloads -/

/-- The session as the client's model has it, where the server's file is the one it opens. -/
def ServedSession.asSftp (session : ServedSession)
    (transfer : NativeAttributes → NativeAttributes) (target : OpenFile)
    (replies : List Sftp.Reply) : SftpSession where
  isOpen := session.isOpen
  content := some (session.world.contents target)
  attributes := transfer (fillAttributes (session.world.fs.statInode target.isDir target.ino))
  lastError := session.lastError
  maxLength := session.maxLength
  maxLength_pos := session.maxLength_pos
  replies := replies

/-- The file that the session opens for reading. -/
def ServedSession.asFile (session : ServedSession)
    (transfer : NativeAttributes → NativeAttributes) (target : OpenFile)
    (replies : List Sftp.Reply) : RemoteFile :=
  (session.asSftp transfer target replies).opened (session.world.contents target)
    (session.asSftp transfer target replies).attributes

variable {session : ServedSession} {path : RemotePath} {canon : Path} {done : Done OpenFile}

/-- A file that is opened for reading is as it was. -/
theorem OpensTo.fs_of_reading {mode : OpenMode} {perms : UInt32} {start : World}
    (h : OpensTo options (openRequest path mode perms) start canon done)
    (hcreate : mode.create = false) (htruncate : mode.truncate = false) :
    done.fs = start.fs := by
  have hopens := h.opens
  rw [flags_openRequest] at hopens
  exact fs_of_openFile hopens hcreate htruncate

/-- Both ends once a file was opened for reading. -/
theorem OpenedFor.seen {mode : OpenMode} {perms : UInt32}
    (h : OpenedFor table options (openRequest path mode perms) session canon done opened)
    (hfs : done.fs = session.world.fs) (transfer : NativeAttributes → NativeAttributes) :
    Seen table transfer opened done.value session.world.fs opened
      (session.asFile transfer done.value []) := by
  have hplain : (posixOpenFlags (openRequest path mode perms).flags).append = false := by
    rw [flags_openRequest]
    rfl
  have hfiles : opened.file.world.fs = session.world.fs := h.fs.trans hfs
  have hopenOn := h.openOn hplain
  refine ⟨⟨h.isOpen.symm, ?_, h.maxLength.symm, hopenOn.opens, hopenOn.plain, ?_, hopenOn.backed,
    hopenOn.whole, fun hmark ↦ ?_⟩, rests_refl h.sound, hfiles, rfl⟩
  · rw [h.offset]
    rfl
  · exact congrArg (fun fs : FileSystem ↦ (fs.inode done.value.ino).data) hfiles
  · exact Bool.noConfusion (h.unseen.symm.trans hmark)

theorem tryOpen_asSftp (hopen : session.isOpen = true) (target : OpenFile)
    (replies : List Sftp.Reply) :
    (session.asSftp transfer target replies).tryOpen { read := true } 0 =
      .ok (session.asFile transfer target replies) := by
  have hnot : ¬ (session.asSftp transfer target replies).isOpen = false := by
    change ¬ session.isOpen = false
    rw [hopen]
    exact Bool.noConfusion
  rw [SftpSession.tryOpen, if_neg hnot]
  rfl

/-- What a run of `try_download` leaves of the server. -/
structure Restored (table : HandleTable) (session after : ServedSession) : Prop where
  same : ∃ world, after = { session with world := world }
  fs : after.world.fs = session.world.fs
  keeps : KeepsOpen session.world after.world
  sound : after.world.Sound table

theorem close_seen (hsound : session.world.Sound table) {message : ClientMessage}
    (h : OpenedFor table options message session canon done opened)
    (hseen : Seen table transfer opened done.value session.world.fs stream remote)
    (world : World) :
    Restored table session ({ session with world := world }.close table options stream) := by
  obtain ⟨after, hclose, hfs, hkeeps, hafter⟩ :=
    close_opened_file hsound h hseen.rests { session with world := world }
  rw [hclose]
  exact ⟨⟨after, rfl⟩, hfs.trans hseen.files, hkeeps, hafter⟩

/-- A read that succeeds before the end of the file was seen is one of a regular file. -/
theorem isFile_of_tryRead {length : ℕ} {data : Bytes} {after : ServedStream}
    (h : OpensFile table stream.file.world stream.file.handle target) (hunseen : stream.eof = false)
    (hread : stream.tryRead table options length = (.ok data, after)) : target.isDir = false := by
  by_contra hdir
  have hnone (file : OpenFile) :
      ¬ ReadsFrom table stream.file.world (stream.readRequest length) file := fun hreads ↦
    hdir (h.unique hreads.held ▸ hreads.isFile)
  obtain ⟨code, text, hok, hend, hanswers⟩ := read_refused table options rfl hnone
  have hmark : ¬ stream.eof = true := by rw [hunseen]; exact Bool.noConfusion
  have hfails : ∃ status, stream.sftpRead table options length =
      (.error status, stream.request table options (stream.readRequest length)) := by
    rw [ServedStream.sftpRead, if_neg hmark, hanswers]
    cases code with
    | ok => exact absurd rfl hok
    | eof => exact absurd rfl hend
    | _ => exact ⟨_, rfl⟩
  obtain ⟨status, hfails⟩ := hfails
  unfold ServedStream.tryRead at hread
  rw [hfails] at hread
  split_ifs at hread <;> cases congrArg Prod.fst hread

theorem isFile_of_loop {opts : TransferOptions} {state after : ServedDownload} {total : ℕ}
    (h : OpensFile table state.stream.file.world state.stream.file.handle target)
    (hunseen : state.stream.eof = false)
    (hloop : ServedDownload.loop table options opts state = (.ok total, after)) :
    target.isDir = false := by
  have hfirst {data : Bytes} {len : ℕ} {middle : ServedDownload}
      (hread : ServedDownload.read table options len state = (.ok data, middle)) :
      target.isDir = false := by
    have hstream : state.stream.tryRead table options len =
        (.ok data, (state.stream.tryRead table options len).2) :=
      Prod.ext (Prod.mk.inj hread).1 rfl
    exact isFile_of_tryRead h hunseen hstream
  rcases copyLoop_succ_ok hloop with ⟨-, hnone | ⟨len, -, hread⟩ | ⟨hrounds, -⟩⟩ |
    ⟨len, data, middle, written, -, hread, -⟩
  · cases hnone.1
  · exact hfirst hread
  · exact absurd hrounds (Nat.not_succ_le_zero _)
  · exact hfirst hread

/-- A download of a file that is opened is one of the client's model, from a server that has what
this one has. -/
theorem tryDownload_of_opened (transfer : NativeAttributes → NativeAttributes)
    {destination : LocalFile} {opts : TransferOptions} (hsound : session.world.Sound table)
    (hchunk : 0 < opts.chunkSize)
    (hready : ¬ (opts.overwrite = .fail ∧ destination.content.isSome))
    (htry : session.tryOpen table options path { read := true } 0o600 =
      (.ok opened, { session with world := opened.file.world })) (hopen : session.isOpen = true)
    (h : OpenedFor table options (openRequest path { read := true } 0o600) session canon done
      opened) :
    ∃ replies after, session.tryDownload table options transfer path destination opts =
        ((tryDownload (session.asSftp transfer done.value replies) destination opts).1,
          (tryDownload (session.asSftp transfer done.value replies) destination opts).2, after) ∧
      Restored table session after ∧
      ∀ n, (session.tryDownload table options transfer path destination opts).1 = .ok n →
        done.value.isDir = false := by
  have hseen := h.seen (h.opens.fs_of_reading rfl rfl) transfer
  unfold ServedSession.tryDownload tryDownload
  simp only [if_neg hready, htry, tryOpen_asSftp hopen]
  by_cases hcan : destination.canOpen = false
  · simp only [if_pos hcan]
    exact ⟨[], _, rfl, close_seen hsound h hseen _, fun n hok ↦ by cases hok⟩
  simp only [if_neg hcan]
  have hloops : Scripts feedDownload
      (SeenDownload table transfer opened done.value session.world.fs)
      (ServedDownload.loop table options opts) (Download.loop opts) :=
    scripts_download_loop hchunk
  obtain ⟨script, after, hafter, hscripted⟩ := hloops
    { stream := opened, out := { room := destination.ioLimit } }
    { file := session.asFile transfer done.value [], out := { room := destination.ioLimit } }
    ⟨hseen, rfl⟩
  rcases hloop : ServedDownload.loop table options opts
      { stream := opened, out := { room := destination.ioLimit } } with ⟨info | total, state⟩ <;>
    rw [hloop] at hafter hscripted
  · have hremote : Download.loop opts { file := session.asFile transfer done.value script
                                        out := { room := destination.ioLimit } } =
        (.error info, feedDownload after []) := by
      rw [← hscripted [], List.append_nil]
      rfl
    refine ⟨script, _, ?_, close_seen hsound h hafter.1 opened.file.world, fun n hok ↦ by cases hok⟩
    simp only [hremote]
    rw [hafter.2]
    rfl
  · obtain ⟨more, later, hlater, hpreserve⟩ := seen_preservePermissions hafter.1 options opts
      { destination with content := some state.out.content }
    have hremote : Download.loop opts { file := session.asFile transfer done.value (script ++ more)
                                        out := { room := destination.ioLimit } } =
        (.ok total, feedDownload after more) := by
      rw [← hscripted more]
      rfl
    refine ⟨script ++ more, _, ?_, close_seen hsound h hlater opened.file.world,
      fun _ _ ↦ isFile_of_loop h.opensFile h.unseen hloop⟩
    simp only [hremote]
    rw [show (feedDownload after more).out = state.out from hafter.2.symm]
    exact Prod.ext rfl (Prod.ext hpreserve.symm rfl)

theorem NotOpened.restored {mode : OpenMode} {perms : UInt32} {world : World}
    (h : NotOpened table options (openRequest path mode perms) session world)
    (hcreate : mode.create = false) (htruncate : mode.truncate = false) :
    Restored table session { session with world := world } := by
  refine ⟨⟨world, rfl⟩, ?_, h.keeps, h.sound⟩
  rcases h.fs with hfs | ⟨canon, done, hopens, hfs⟩
  · exact hfs
  · exact hfs.trans (hopens.fs_of_reading hcreate htruncate)

/-- Every download is one of the client's model, and leaves the server as it was. -/
theorem tryDownload_conforms (options : Options) (transfer : NativeAttributes → NativeAttributes)
    (hsound : session.world.Sound table) (path : RemotePath) (destination : LocalFile)
    {opts : TransferOptions} (hchunk : 0 < opts.chunkSize) :
    ∃ sftp after, session.tryDownload table options transfer path destination opts =
        ((tryDownload sftp destination opts).1, (tryDownload sftp destination opts).2, after) ∧
      Restored table session after ∧
      (sftp.content = none ∨ ∃ canon done replies,
        OpensTo options (openRequest path { read := true } 0o600) session.world canon done ∧
        sftp = session.asSftp transfer done.value replies ∧
        ∀ n, (session.tryDownload table options transfer path destination opts).1 = .ok n →
          done.value.isDir = false) := by
  by_cases hready : opts.overwrite = .fail ∧ destination.content.isSome
  · refine ⟨session.refused 0, session, ?_, ?_, .inl rfl⟩
    · unfold ServedSession.tryDownload tryDownload
      rw [if_pos hready, if_pos hready]
    · exact ⟨⟨session.world, rfl⟩, rfl, keepsOpen_refl _, hsound⟩
  rcases tryOpen_cases options hsound path { read := true } 0o600 with
    ⟨info, world, htry, hwhy, hnot⟩ | ⟨canon, done, opened, htry, hopen, hopened⟩
  · obtain ⟨status, hrefused⟩ := tryOpen_refused hwhy { read := true } 0
    refine ⟨session.refused status, { session with world := world }, ?_,
      hnot.restored rfl rfl, .inl rfl⟩
    unfold ServedSession.tryDownload tryDownload
    rw [if_neg hready, if_neg hready, htry, hrefused]
  · obtain ⟨replies, after, hrun, hrestored, hfile⟩ :=
      tryDownload_of_opened transfer hsound hchunk hready htry hopen hopened
    exact ⟨_, after, hrun, hrestored, .inr ⟨canon, done, replies, hopened.opens, rfl, hfile⟩⟩

/-! ### What is downloaded -/

theorem restored_of_tryDownload (options : Options)
    (transfer : NativeAttributes → NativeAttributes) (hsound : session.world.Sound table)
    (path : RemotePath) (destination : LocalFile) {opts : TransferOptions}
    (hchunk : 0 < opts.chunkSize) :
    Restored table session
      (session.tryDownload table options transfer path destination opts).2.2 := by
  obtain ⟨sftp, after, hrun, hrestored, -⟩ :=
    tryDownload_conforms options transfer hsound path destination hchunk
  rw [hrun]
  exact hrestored

/-- What arrives is the regular file that the path leads to. -/
theorem arrived_of_tryDownload {destination : LocalFile} {opts : TransferOptions} {n : ℕ}
    (hsound : session.world.Sound table) (hchunk : 0 < opts.chunkSize)
    (hok : (session.tryDownload table options transfer path destination opts).1 = .ok n) :
    ∃ canon data, Resolves session.world.fs options.root (cString path) canon ∧
      session.world.fs.fileAt canon = some data ∧ n = data.length ∧
      (session.tryDownload table options transfer path destination opts).2.1.content =
        some (({ room := destination.ioLimit } : OutStream).write data).content := by
  obtain ⟨sftp, after, hrun, -, hfile⟩ :=
    tryDownload_conforms options transfer hsound path destination hchunk
  have hdownload : tryDownload sftp destination opts =
      (.ok n, (session.tryDownload table options transfer path destination opts).2.1) := by
    rw [← hok, hrun]
  obtain ⟨source, data, hcontent, hdata, hcount, hlocal⟩ := tryDownload_ok hdownload
  rw [if_neg hchunk.ne'] at hdata
  subst hdata
  rcases hfile with hnone | ⟨canon, done, replies, hopens, rfl, hregular⟩
  · cases hnone.symm.trans hcontent
  · have hopensAt := opensFileAt_of_openFile hopens.opens (hregular n hok)
    have hat := hopensAt.isFile.fileAt
    rw [hopens.fs_of_reading rfl rfl] at hat
    refine ⟨canon, data, path_openRequest path _ _ ▸ hopens.resolves, ?_, hcount, hlocal⟩
    rw [hat]
    exact hcontent

/-- What is downloaded from a server is the regular file the path leads to there, as far as the
local disk takes it. Nothing changes on the server, where no descriptor and no handle stays
behind, whatever becomes of the download. -/
theorem served_download_exact (table : HandleTable) (options : Options)
    (transfer : NativeAttributes → NativeAttributes) (session : ServedSession)
    (hsound : session.world.Sound table) (path : RemotePath) (destination : LocalFile)
    (opts : TransferOptions) (hchunk : 0 < opts.chunkSize) :
    let run := session.tryDownload table options transfer path destination opts
    run.2.2.world.fs = session.world.fs ∧ KeepsOpen session.world run.2.2.world ∧
      ∀ n, run.1 = .ok n → ∃ canon data,
        Resolves session.world.fs options.root (cString path) canon ∧
        session.world.fs.fileAt canon = some data ∧ n = data.length ∧
        run.2.1.content =
          some (({ room := destination.ioLimit } : OutStream).write data).content := by
  have hrestored := restored_of_tryDownload options transfer hsound path destination hchunk
  exact ⟨hrestored.fs, hrestored.keeps, fun n hok ↦ arrived_of_tryDownload hsound hchunk hok⟩

/-! ### What is there can be downloaded -/

/-- A regular file that can be read and is not yet read beyond its end, and nothing that goes
wrong. -/
structure Readable (table : HandleTable) (target : OpenFile) (data : Bytes)
    (stream : ServedStream) : Prop where
  isOpen : stream.file.isOpen = true
  opens : OpensFile table stream.file.world stream.file.handle target
  content : stream.file.world.contents target = data
  access : target.flags.access ≠ .writeOnly
  isFile : target.isDir = false
  faults : stream.file.world.faults = []
  offset : stream.file.offset.toNat ≤ data.length
  size : data.length < 2 ^ 63

theorem Readable.asked {data : Bytes} (h : Readable table target data stream)
    (options : Options) {message : ClientMessage} (htype : message.type = fxpRead) {offset : UInt64}
    (hoffset : offset.toNat ≤ data.length) (eof : Bool) :
    Readable table target data (stream.asked table options message offset eof) := by
  obtain ⟨hfs, hkeeps⟩ := read_frame table options stream.file.world htype
  refine ⟨h.isOpen, (ServedFile.opensFile_congr hkeeps.fds hkeeps.slots).mpr h.opens, ?_, h.access,
    h.isFile, ?_, hoffset, h.size⟩
  · exact (congrArg (fun fs : FileSystem ↦ (fs.inode target.ino).data) hfs).trans h.content
  · exact List.subset_nil.mp fun fault hfault ↦ h.faults ▸ hkeeps.faults fault hfault

/-- A read of such a file succeeds. -/
theorem Readable.tryRead {data : Bytes} (h : Readable table target data stream)
    (options : Options) (length : ℕ) :
    ∃ bytes after, stream.tryRead table options length = (.ok bytes, after) ∧
      Readable table target data after := by
  have hopen : ¬ stream.file.isOpen = false := by rw [h.isOpen]; exact Bool.noConfusion
  unfold ServedStream.tryRead ServedStream.sftpRead
  rw [if_neg hopen]
  by_cases hmark : stream.eof = true
  · rw [if_pos hmark]
    exact ⟨[], stream, rfl, h⟩
  rw [if_neg hmark]
  have hreads : ReadsFrom table stream.file.world (stream.readRequest length) target :=
    ⟨h.opens, by rw [fault_of_nil h.faults]; rfl, h.access,
      toInt64_nonneg (h.offset.trans_lt h.size), h.isFile⟩
  have hanswers := read_answers table options rfl hreads
  rw [hanswers]
  cases hbytes : stream.file.world.readBytes target (stream.readRequest length) with
  | nil => exact ⟨[], _, rfl, h.asked options rfl h.offset true⟩
  | cons byte more =>
    have hlength : (byte :: more).length ≤ data.length - stream.file.offset.toNat := by
      rw [← hbytes, World.readBytes, h.content, List.length_take, List.length_drop,
        (toNatClampNeg_of_nonneg hreads.offset).1]
      exact min_le_right _ _
    have hcount : (byte :: more).length < 2 ^ 32 := by
      rw [← hbytes, World.readBytes]
      refine (List.length_take_le _ _).trans_lt ?_
      rw [fault_of_nil h.faults]
      exact (min_le_right _ _).trans_lt (by decide)
    have hadvanced : (stream.file.offset + (byte :: more).length.toUInt64).toNat ≤ data.length := by
      rw [ServedStream.toNat_advanced (h.offset.trans_lt h.size) hcount]
      have hoffset := h.offset
      omega
    exact ⟨byte :: more, _, rfl, h.asked options rfl hadvanced stream.eof⟩

theorem Readable.loop {data : Bytes} {state : ServedDownload}
    (h : Readable table target data state.stream) (options : Options) {opts : TransferOptions}
    (hprogress : ∀ total, opts.cancelled "try_download" total = none) :
    ∃ count after, ServedDownload.loop table options opts state = (.ok count, after) := by
  let inv (state : ServedDownload) : Prop := Readable table target data state.stream
  have hread (len : ℕ) (state : ServedDownload) (hstate : inv state) :
      ∃ bytes after, ServedDownload.read table options len state = (.ok bytes, after) ∧
        inv after := by
    obtain ⟨bytes, stream, hread, hafter⟩ := hstate.tryRead options len
    refine ⟨bytes, { state with stream := stream }, ?_, hafter⟩
    rw [ServedDownload.read, hread]
  have hwrite (bytes : Bytes) (state : ServedDownload) (hstate : inv state) :
      ∃ after, ServedDownload.write bytes state = (.ok (), after) ∧ inv after := ⟨_, rfl, hstate⟩
  exact copyLoop_succeeds hread hwrite hprogress _ h

/-- The attributes of an open file, with nothing in the way. -/
theorem tryStat_answers (options : Options) (transfer : NativeAttributes → NativeAttributes)
    (hopen : stream.file.isOpen = true)
    (h : OpensFile table stream.file.world stream.file.handle target)
    (hfaults : stream.file.world.faults = []) :
    ∃ after, stream.tryStat table options transfer =
      (.ok (attributesFromNative (transfer (fillAttributes
        (stream.file.world.fs.statInode target.isDir target.ino)))), after) := by
  have hnot : ¬ stream.file.isOpen = false := by rw [hopen]; exact Bool.noConfusion
  rcases (fstat_answers table options (rfl : stream.statRequest.type = fxpFstat) h).1 with
    ⟨-, hanswers⟩ | ⟨text, hfails, -⟩
  · refine ⟨stream.request table options stream.statRequest, ?_⟩
    unfold ServedStream.tryStat
    rw [if_neg hnot, hanswers]
  · rw [fault_of_nil hfaults] at hfails
    exact Bool.noConfusion hfails

/-- The permissions of the file come with a download, with nothing in the way. -/
theorem preservePermissions_answers (options : Options)
    (hwire : WireVersion3 transfer) (hopen : stream.file.isOpen = true)
    (h : OpensFile table stream.file.world stream.file.handle target)
    (hfaults : stream.file.world.faults = []) (opts : TransferOptions) (destination : LocalFile) :
    (stream.preservePermissions table options transfer opts destination).1 = { destination with
      permissions := if opts.preservePermissions then
        some ((stream.file.world.fs.statInode target.isDir target.ino).mode &&& 0o7777)
          else destination.permissions } := by
  obtain ⟨after, hstat⟩ := tryStat_answers options transfer hopen h hfaults
  unfold ServedStream.preservePermissions
  by_cases hpreserve : opts.preservePermissions = true
  · have hperms : (attributesFromNative (transfer (fillAttributes
        (stream.file.world.fs.statInode target.isDir target.ino)))).stdPerms =
          (stream.file.world.fs.statInode target.isDir target.ino).mode &&& 0o7777 :=
      congrArg (· &&& 0o7777) (hwire.permissions _)
    rw [if_pos hpreserve, if_pos hpreserve, hstat, ← hperms]
  · rw [if_neg hpreserve, if_neg hpreserve]

theorem tryDownload_of_loop {destination : LocalFile} {opts : TransferOptions} {total : ℕ}
    {state : ServedDownload} {perms : UInt32}
    (hready : opts.overwrite = .fail → destination.content = none)
    (htry : session.tryOpen table options path { read := true } 0o600 =
      (.ok opened, { session with world := opened.file.world }))
    (hcan : destination.canOpen = true)
    (hloop : ServedDownload.loop table options opts
      { stream := opened, out := { room := destination.ioLimit } } = (.ok total, state))
    (hpreserve : (state.stream.preservePermissions table options transfer opts
      { destination with content := some state.out.content }).1 =
        { destination with
          content := some state.out.content
          permissions := if opts.preservePermissions then some perms
            else destination.permissions }) :
    ∃ after, session.tryDownload table options transfer path destination opts =
      (.ok total, { destination with
        content := some state.out.content
        permissions := if opts.preservePermissions then some perms
          else destination.permissions }, after) := by
  have hnot : ¬ (opts.overwrite = .fail ∧ destination.content.isSome) := by
    rintro ⟨hfail, hsome⟩
    rw [hready hfail] at hsome
    exact Bool.noConfusion hsome
  have hcannot : ¬ destination.canOpen = false := by rw [hcan]; exact Bool.noConfusion
  unfold ServedSession.tryDownload
  rw [if_neg hnot, htry]
  dsimp only
  rw [if_neg hcannot, hloop, ← hpreserve]
  exact ⟨_, rfl⟩

/-- Opening a file for reading asks for nothing else. -/
theorem wantsWrite_reading (path : RemotePath) (perms : UInt32) :
    (openRequest path { read := true } perms).wantsWrite = false := by
  have hflags : sftpOpenFlags (openModeToPosix { read := true }) &&&
      (fxfWrite ||| fxfCreat ||| fxfTrunc ||| fxfAppend) = 0 := by decide
  exact decide_eq_false (not_not.mpr hflags)

/-- The stream of a regular file that was just opened for reading. -/
theorem OpenedFor.readable {perms : UInt32} {ino : ℕ} {loc : Loc}
    (h : OpenedFor table options (openRequest path { read := true } perms) session canon
      ⟨⟨loc, ino, false, openModeToPosix { read := true }⟩, session.world.fs, [loc]⟩ opened)
    (hfaults : session.world.faults = [])
    (hsize : (session.world.fs.inode ino).data.length < 2 ^ 63) :
    Readable table ⟨loc, ino, false, openModeToPosix { read := true }⟩
      (session.world.fs.inode ino).data opened := by
  obtain ⟨slot, entry, -, hplaces⟩ := h.places
  have haccess : (openModeToPosix { read := true }).access ≠ .writeOnly := by decide
  refine ⟨h.isOpen, h.opensFile, congrArg (fun fs : FileSystem ↦ (fs.inode ino).data) h.fs,
    haccess, rfl, ?_, ?_, hsize⟩
  · exact List.subset_nil.mp fun fault hfault ↦ hfaults ▸ hplaces.faults fault hfault
  · rw [h.offset]
    exact Nat.zero_le _

/-- The server opens a regular file for reading. -/
theorem opensTo_reading {ino : ℕ} (perms : UInt32)
    (hresolves : Resolves session.world.fs options.root (cString path) canon)
    (hfile : session.world.fs.IsFile canon ino) :
    ∃ loc, OpensTo options (openRequest path { read := true } perms) session.world canon
      ⟨⟨loc, ino, false, openModeToPosix { read := true }⟩, session.world.fs, [loc]⟩ := by
  obtain ⟨loc, hopenFile⟩ := @FileSystem.IsFile.openFile _ _ _ hfile
    (openModeToPosix { read := true }) rfl rfl
      ((openRequest path { read := true } perms).mode 0o644)
  refine ⟨loc, fun _ ↦ wantsWrite_reading path perms, ?_, ?_⟩
  · rw [path_openRequest]
    exact hresolves
  · rw [flags_openRequest]
    exact hopenFile

theorem tryDownload_of_isFile {slot ino : ℕ} {destination : LocalFile} {opts : TransferOptions}
    (hwire : WireVersion3 transfer) (hsound : session.world.Sound table)
    (hopen : session.isOpen = true) (hfaults : session.world.faults = [])
    (hslot : table.pick session.world.slots = some slot)
    (hresolves : Resolves session.world.fs options.root (cString path) canon)
    (hfile : session.world.fs.IsFile canon ino)
    (hsize : (session.world.fs.inode ino).data.length < 2 ^ 63)
    (hcan : destination.canOpen = true)
    (hready : opts.overwrite = .fail → destination.content = none) (hchunk : 0 < opts.chunkSize)
    (hprogress : ∀ total, opts.cancelled "try_download" total = none) :
    ∃ after, session.tryDownload table options transfer path destination opts =
      (.ok (session.world.fs.inode ino).data.length, { destination with
        content := some (({ room := destination.ioLimit } : OutStream).write
          (session.world.fs.inode ino).data).content
        permissions := if opts.preservePermissions then
          some ((session.world.fs.statInode false ino).mode &&& 0o7777)
            else destination.permissions }, after) := by
  obtain ⟨loc, hopens⟩ := opensTo_reading 0o600 hresolves hfile
  obtain ⟨opened, htry, hopened⟩ := tryOpen_opens hsound hopen hfaults hopens hslot
  let start : ServedDownload := { stream := opened, out := { room := destination.ioLimit } }
  have hreadable := hopened.readable hfaults hsize
  obtain ⟨count, state, hloop⟩ := @Readable.loop _ _ _ start hreadable options opts hprogress
  let target : OpenFile := ⟨loc, ino, false, openModeToPosix { read := true }⟩
  have hloops : Scripts feedDownload (SeenDownload table transfer opened target session.world.fs)
      (ServedDownload.loop table options opts) (Download.loop opts) :=
    scripts_download_loop hchunk
  obtain ⟨-, after, hafter, -⟩ := hloops start
    { file := session.asFile transfer target [], out := { room := destination.ioLimit } }
    ⟨hopened.seen rfl transfer, rfl⟩
  rw [hloop] at hafter
  have hseen := hafter.1
  have hquiet : state.stream.file.world.faults = [] := List.subset_nil.mp fun fault hfault ↦
    hreadable.faults ▸ hseen.rests.keeps.faults fault hfault
  have hpreserve := preservePermissions_answers options hwire
    (hseen.rests.isOpen.trans hopened.isOpen) hseen.shows.opens hquiet opts
    { destination with content := some state.out.content }
  rw [hseen.files] at hpreserve
  obtain ⟨left, hrun⟩ := tryDownload_of_loop hready htry hcan hloop hpreserve
  obtain ⟨other, data, ⟨-, -, hother, -⟩, hdata, hcount, hcontent⟩ :=
    arrived_of_tryDownload hsound hchunk (congrArg Prod.fst hrun)
  obtain ⟨-, -, hcanon, -⟩ := hresolves
  obtain rfl := Except.ok.inj (hcanon.symm.trans hother)
  obtain rfl := Option.some.inj (hfile.fileAt.symm.trans hdata)
  rw [hrun] at hcontent
  exact ⟨left, by rw [hrun, hcount, ← hcontent]⟩

/-- The file `f`, downloaded in pieces of two bytes. -/
theorem served_download_exact_single :
    (singleFileSession.tryDownload HandleTable.firstFree srvServer transferVersion3 (ascii "f")
        { path := "/tmp/f" } { chunkSize := 2 }).1 = .ok 5 ∧
      ∃ canon data, Resolves singleFile srvServer.root (cString (ascii "f")) canon ∧
        singleFile.fileAt canon = some data ∧ 5 = data.length ∧
        (singleFileSession.tryDownload HandleTable.firstFree srvServer transferVersion3 (ascii "f")
          { path := "/tmp/f" } { chunkSize := 2 }).2.1.content =
            some (({ room := none } : OutStream).write data).content := by
  have hok : (singleFileSession.tryDownload HandleTable.firstFree srvServer transferVersion3
      (ascii "f") { path := "/tmp/f" } { chunkSize := 2 }).1 = .ok 5 := by decide +kernel
  exact ⟨hok, (served_download_exact HandleTable.firstFree srvServer transferVersion3
    singleFileSession singleFileSession_sound (ascii "f") { path := "/tmp/f" } { chunkSize := 2 }
    (by decide)).2.2 5 hok⟩

theorem resolves_single : Resolves singleFile srvServer.root (cString (ascii "f"))
    ⟨true, [ascii "srv", ascii "f"]⟩ :=
  ⟨⟨true, [ascii "srv"]⟩, by decide +kernel, by decide +kernel, by decide +kernel⟩

end LibSshpp.SftpServer
