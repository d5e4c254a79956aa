import LibSshpp.Posix.FileStream
import LibSshpp.Program.CopyLoop
import LibSshpp.Sftp.RemoteFile

/-!
`sftp::try_download` and `sftp::try_upload`: whole files, chunk by chunk, between
a remote file and a local stream. The download does not look at the state of its
output stream after opening it, the upload takes any end of its input stream for
the end of the file, and both take a read of nothing into an empty buffer for the
end of the file.
-/

set_option autoImplicit false
set_option relaxedAutoImplicit false

namespace LibSshpp.Sftp

open Posix Program

/-! ### Both ends of a transfer -/

structure OpenMode where
  read : Bool := false
  write : Bool := false
  create : Bool := false
  truncate : Bool := false
  exclusive : Bool := false
  deriving DecidableEq, Repr

def sshFxNoSuchFile : ℤ := 2
def sshFxFailure : ℤ := 4

theorem sshFxNoSuchFile_ne : sshFxNoSuchFile ≠ 0 := by decide

theorem sshFxFailure_ne : sshFxFailure ≠ 0 := by decide

/-- An `Sftp` session as one transfer meets it: the file at the remote path, if
there is one, the status with which the server refuses to open it, if it does, and
how it answers on the open file. -/
structure SftpSession where
  isOpen : Bool := true
  content : Option Bytes := none
  attributes : NativeAttributes := {}
  refusal : Option ℤ := none
  lastError : SshError := {}
  maxLength : ℕ := 262144
  maxLength_pos : 0 < maxLength := by decide
  replies : List Reply := []
  deriving Repr

namespace SftpSession

def opened (sftp : SftpSession) (content : Bytes) (attributes : NativeAttributes) : RemoteFile where
  content
  attributes
  maxLength := sftp.maxLength
  maxLength_pos := sftp.maxLength_pos
  replies := sftp.replies

/-- `sftp_open`. -/
def sftpOpen (sftp : SftpSession) (mode : OpenMode) (createPerms : UInt32) : Except ℤ RemoteFile :=
  match sftp.refusal, sftp.content with
  | some status, _ => .error status
  | none, none =>
    if mode.create then .ok (sftp.opened [] { permissions := createPerms })
    else .error sshFxNoSuchFile
  | none, some content =>
    if mode.create && mode.exclusive then .error sshFxFailure
    else .ok (sftp.opened (if mode.truncate then [] else content) sftp.attributes)

/-- `Sftp::try_open`. -/
def tryOpen (sftp : SftpSession) (mode : OpenMode) (createPerms : UInt32) : Result RemoteFile :=
  if sftp.isOpen = false then
    .error { code := .ssh .invalidHandle, operation := "Sftp::try_open" }
  else match sftp.sftpOpen mode createPerms with
    | .error status => .error (makeSftpErrorInfo status sftp.lastError "sftp_open")
    | .ok file => .ok file

end SftpSession

structure Progress where
  bytesDone : ℕ := 0
  bytesTotal : Option ℕ := none

inductive Overwrite
  | fail | replace
  deriving DecidableEq, Repr

/-- `TransferOptions`. No two calls of the callback in a transfer have the same
`bytes_done`, so its answers are a function of what it is given. -/
structure TransferOptions where
  overwrite : Overwrite := .replace
  preservePermissions : Bool := true
  chunkSize : ℕ := 256 * 1024
  progress : Option (Progress → Bool) := none

/-- The error the callback ends a transfer with, if it does. -/
def TransferOptions.cancelled (opts : TransferOptions) (operation : String) (bytesDone : ℕ) :
    Option ErrorInfo :=
  match opts.progress with
  | none => none
  | some progress =>
    if progress { bytesDone } then none else some { code := .ssh .cancelled, operation }

/-! ### Download -/

structure Download where
  file : RemoteFile
  out : OutStream
  deriving DecidableEq, Repr

namespace Download

def read (len : ℕ) : StateM Download (Result Bytes) := fun state ↦
  let (result, file) := state.file.tryRead len
  (result, { state with file })

/-- `out.write`, whose outcome is not looked at. -/
def write (data : Bytes) : StateM Download (Result Unit) := fun state ↦
  (.ok (), { state with out := state.out.write data })

/-- The loop of `try_download`. Each round but the last one reads something of the
file. -/
def loop (opts : TransferOptions) : StateM Download (Result ℕ) := fun state ↦
  copyLoop (fun _ _ ↦ some opts.chunkSize) read write (opts.cancelled "try_download")
    (state.file.content.length + 1) 0 state

end Download

/-- The last step of `try_download`. -/
def preservePermissions (opts : TransferOptions) (file : RemoteFile) (destination : LocalFile) :
    LocalFile :=
  if opts.preservePermissions then
    match file.tryStat with
    | (.error _, _) => destination
    | (.ok attributes, _) => { destination with permissions := some attributes.stdPerms }
  else destination

/-- `sftp::try_download`. -/
def tryDownload (sftp : SftpSession) (destination : LocalFile) (opts : TransferOptions) :
    Result ℕ × LocalFile :=
  if opts.overwrite = .fail ∧ destination.content.isSome then
    (.error {
      code := .ssh .invalidArgument, message := "destination already exists"
      operation := "try_download" }, destination)
  else match sftp.tryOpen { read := true } 0 with
    | .error info => (.error info, destination)
    | .ok file =>
      if destination.canOpen = false then
        (.error {
          code := .ssh .invalidArgument, message := "cannot open " ++ destination.path
          operation := "try_download" }, destination)
      else
        let (result, state) := Download.loop opts { file, out := { room := destination.ioLimit } }
        let destination := { destination with content := some state.out.content }
        match result with
        | .error info => (.error info, destination)
        | .ok total => (.ok total, preservePermissions opts state.file destination)

/-! ### Upload -/

structure Upload where
  stream : InStream
  file : RemoteFile
  deriving DecidableEq, Repr

namespace Upload

def read (len : ℕ) : StateM Upload (Result Bytes) := fun state ↦
  let (data, stream) := state.stream.read len
  (.ok data, { state with stream })

def write (data : Bytes) : StateM Upload (Result Unit) := fun state ↦
  let (result, file) := RemoteFile.tryWriteAll data state.file
  (result, { state with file })

/-- The condition of the loop, with the length of its buffer. -/
def want (chunkSize : ℕ) (state : Upload) (_ : ℕ) : Option ℕ :=
  if state.stream.failed then none else some chunkSize

/-- The loop of `try_upload`. Each round but the last one reads something of the
file. -/
def loop (opts : TransferOptions) : StateM Upload (Result ℕ) := fun state ↦
  copyLoop (want opts.chunkSize) read write (opts.cancelled "try_upload")
    (state.stream.content.length + 1) 0 state

end Upload

/-- The permissions a remote file is created with. -/
def uploadPerms (source : LocalFile) (opts : TransferOptions) : UInt32 :=
  if opts.preservePermissions then source.permissions.getD 0o600 else 0o600

def uploadMode (opts : TransferOptions) : OpenMode where
  write := true
  create := true
  truncate := opts.overwrite = .replace
  exclusive := opts.overwrite ≠ .replace

/-- `sftp::try_upload`. -/
def tryUpload (sftp : SftpSession) (source : LocalFile) (opts : TransferOptions) :
    Result ℕ × SftpSession :=
  match if source.canOpen then source.content else none with
  | none =>
    (.error {
      code := .ssh .invalidArgument, message := "cannot open " ++ source.path
      operation := "try_upload" }, sftp)
  | some content =>
    match sftp.tryOpen (uploadMode opts) (uploadPerms source opts) with
    | .error info => (.error info, sftp)
    | .ok file =>
      let (result, state) :=
        Upload.loop opts { stream := { content, readable := source.ioLimit }, file }
      (result, { sftp with content := some state.file.content })

/-! ### What the loops copy -/

namespace Download

/-- The data was the next of the remote file, read with a buffer of this size, and
was given to the stream. -/
structure Moved (chunkSize : ℕ) (before : Download) (data : Bytes) (after : Download) : Prop where
  content : after.file.content = before.file.content
  offset : after.file.offset = before.file.offset + data.length
  next : data <+: before.file.content.drop before.file.offset
  buffer : chunkSize = 0 → data = []
  out : after.out = before.out.write data

theorem read_ok {len : ℕ} {data : Bytes} {state after : Download}
    (h : read len state = (.ok data, after)) :
    ∃ file, state.file.tryRead len = (.ok data, file) ∧ after = { state with file } := by
  obtain ⟨hresult, rfl⟩ := Prod.mk.inj h
  exact ⟨_, Prod.ext hresult rfl, rfl⟩

theorem copies (chunkSize : ℕ) :
    Copies (fun _ _ ↦ some chunkSize) read write (Moved chunkSize) where
  refl := fun state ↦ ⟨rfl, rfl, List.nil_prefix, fun _ ↦ rfl, (OutStream.write_nil _).symm⟩
  trans := by
    intro before middle after first second hfirst hsecond
    refine ⟨?_, ?_, ?_, fun hzero ↦ ?_, ?_⟩
    · rw [hsecond.content, hfirst.content]
    · rw [hsecond.offset, hfirst.offset, List.length_append, Nat.add_assoc]
    · have hnext := hsecond.next
      rw [hfirst.content, hfirst.offset] at hnext
      exact append_isPrefix_drop hfirst.next hnext
    · rw [hfirst.buffer hzero, hsecond.buffer hzero, List.append_nil]
    · rw [hsecond.out, hfirst.out, OutStream.write_append]
  step := by
    intro state middle after total len data hwant hread hne hwrite
    obtain rfl := Option.some.inj hwant
    obtain ⟨file, hfile, rfl⟩ := read_ok hread
    obtain ⟨hcontent, hoffset, hnext, hlength, -⟩ := RemoteFile.tryRead_ok hfile
    obtain ⟨-, rfl⟩ := Prod.mk.inj hwrite
    refine ⟨hcontent, hoffset, hnext, fun hzero ↦ ?_, rfl⟩
    exact List.length_eq_zero_iff.mp (by omega)

/-- A loop that succeeds has given the whole file to the stream, or nothing when
the buffer is empty. -/
theorem loop_ok {opts : TransferOptions} {state after : Download} {count : ℕ}
    (hoffset : state.file.offset = 0) (h : loop opts state = (.ok count, after)) :
    ∃ data, data = (if opts.chunkSize = 0 then [] else state.file.content) ∧
      count = data.length ∧ after.out = state.out.write data := by
  obtain ⟨data, last, hmoved, hcount, hstopped⟩ := (copies opts.chunkSize).copyLoop_ok _ h
  have hnext := hmoved.next
  have hend := hmoved.offset
  rw [hoffset] at hnext
  rw [hoffset, Nat.zero_add] at hend
  rw [Nat.zero_add] at hcount
  refine ⟨data, ?_, hcount, ?_⟩
  · by_cases hzero : opts.chunkSize = 0
    · rw [if_pos hzero, hmoved.buffer hzero]
    · rw [if_neg hzero]
      rcases hstopped with ⟨hnone, -⟩ | ⟨len, hlen, hread⟩ | ⟨hrounds, -⟩
      · exact nomatch hnone
      · obtain rfl := Option.some.inj hlen
        obtain ⟨file, hfile, -⟩ := read_ok hread
        obtain ⟨-, -, -, -, hempty⟩ := RemoteFile.tryRead_ok hfile
        have hnothing := hempty (Nat.pos_of_ne_zero hzero) rfl
        rw [hmoved.content, hend] at hnothing
        have hwhole : data = state.file.content.drop 0 :=
          eq_of_isPrefix_drop hnext (by rwa [Nat.zero_add])
        exact hwhole
      · have hlength := hnext.length_le
        rw [List.drop_zero] at hlength
        omega
  · rw [← hmoved.out]
    rcases hstopped with ⟨-, rfl⟩ | ⟨len, hlen, hread⟩ | ⟨-, rfl⟩
    · rfl
    · obtain ⟨file, -, rfl⟩ := read_ok hread
      rfl
    · rfl

end Download

namespace Upload

/-- The bytes of the local file that can be read. -/
def source (stream : InStream) : Bytes := upTo stream.readable stream.content

/-- The stream has failed only where there is nothing more to read. -/
def FailedAtEnd (stream : InStream) : Prop :=
  stream.failed = true → (source stream).drop stream.position = []

/-- The data was the next of the local file, read with a buffer of this size, and
was written to the remote one. -/
structure Moved (chunkSize : ℕ) (before : Upload) (data : Bytes) (after : Upload) : Prop where
  source : source after.stream = source before.stream
  position : after.stream.position = before.stream.position + data.length
  next : data <+: (Upload.source before.stream).drop before.stream.position
  buffer : chunkSize = 0 → data = []
  failed : FailedAtEnd before.stream → FailedAtEnd after.stream
  file : before.file.Took data after.file

theorem read_ok {len : ℕ} {data : Bytes} {state after : Upload}
    (h : read len state = (.ok data, after)) :
    data = ((source state.stream).drop state.stream.position).take len ∧
      after.file = state.file ∧ source after.stream = source state.stream ∧
      after.stream.position = state.stream.position + data.length ∧
      (after.stream.failed = true → data.length < len) := by
  obtain ⟨hresult, rfl⟩ := Prod.mk.inj h
  obtain rfl := Except.ok.inj hresult
  exact ⟨rfl, rfl, rfl, rfl, of_decide_eq_true⟩

theorem write_ok {data : Bytes} {state after : Upload} (h : write data state = (.ok (), after)) :
    after.stream = state.stream ∧ state.file.Took data after.file := by
  obtain ⟨hresult, rfl⟩ := Prod.mk.inj h
  exact ⟨rfl, RemoteFile.tryWriteAll_ok (Prod.ext hresult rfl)⟩

theorem copies (chunkSize : ℕ) : Copies (want chunkSize) read write (Moved chunkSize) where
  refl := fun state ↦
    ⟨rfl, rfl, List.nil_prefix, fun _ ↦ rfl, fun h ↦ h, RemoteFile.accepts_tryWrite.refl _⟩
  trans := by
    intro before middle after first second hfirst hsecond
    refine ⟨?_, ?_, ?_, fun hzero ↦ ?_, fun hbefore ↦ hsecond.failed (hfirst.failed hbefore), ?_⟩
    · rw [hsecond.source, hfirst.source]
    · rw [hsecond.position, hfirst.position, List.length_append, Nat.add_assoc]
    · have hnext := hsecond.next
      rw [hfirst.source, hfirst.position] at hnext
      exact append_isPrefix_drop hfirst.next hnext
    · rw [hfirst.buffer hzero, hsecond.buffer hzero, List.append_nil]
    · exact RemoteFile.accepts_tryWrite.trans hfirst.file hsecond.file
  step := by
    intro state middle after total len data hwant hread hne hwrite
    obtain ⟨hdata, hfile, hsource, hposition, hfailed⟩ := read_ok hread
    obtain ⟨hstream, htook⟩ := write_ok hwrite
    have hlen : len = chunkSize := by
      unfold want at hwant
      split at hwant
      · exact nomatch hwant
      · exact (Option.some.inj hwant).symm
    refine ⟨?_, ?_, ?_, fun hzero ↦ ?_, fun _ ↦ ?_, ?_⟩
    · rw [hstream, hsource]
    · rw [hstream, hposition]
    · rw [hdata]
      exact List.take_prefix _ _
    · rw [hdata, hlen, hzero, List.take_zero]
    · intro hafter
      rw [hstream] at hafter ⊢
      have hshort := hfailed hafter
      rw [hsource, hposition, ← List.drop_drop]
      have hall : data = (source state.stream).drop state.stream.position := by
        rw [hdata, List.take_eq_self_iff]
        rw [hdata, List.length_take] at hshort
        omega
      rw [← hall, List.drop_length]
    · rw [← hfile]
      exact htook

/-- A loop that succeeds has written all that can be read of the local file, or
nothing when the buffer is empty. -/
theorem loop_ok {opts : TransferOptions} {state after : Upload} {count : ℕ}
    (hposition : state.stream.position = 0) (hfailed : state.stream.failed = false)
    (h : loop opts state = (.ok count, after)) :
    ∃ data, data = (if opts.chunkSize = 0 then [] else source state.stream) ∧
      count = data.length ∧ state.file.Took data after.file := by
  obtain ⟨data, last, hmoved, hcount, hstopped⟩ := (copies opts.chunkSize).copyLoop_ok _ h
  have hnext := hmoved.next
  have hend := hmoved.position
  rw [hposition] at hnext
  rw [hposition, Nat.zero_add] at hend
  rw [Nat.zero_add] at hcount
  have hwhole : (source last.stream).drop last.stream.position = [] →
      data = source state.stream := by
    intro hnothing
    rw [hmoved.source, hend] at hnothing
    have hall : data = (source state.stream).drop 0 :=
      eq_of_isPrefix_drop hnext (by rwa [Nat.zero_add])
    exact hall
  refine ⟨data, ?_, hcount, ?_⟩
  · by_cases hzero : opts.chunkSize = 0
    · rw [if_pos hzero, hmoved.buffer hzero]
    · rw [if_neg hzero]
      rcases hstopped with ⟨hnone, -⟩ | ⟨len, hlen, hread⟩ | ⟨hrounds, -⟩
      · apply hwhole
        apply hmoved.failed fun h ↦ absurd (hfailed.symm.trans h) (by decide)
        by_contra hgood
        rw [want, if_neg hgood] at hnone
        exact nomatch hnone
      · apply hwhole
        obtain ⟨hdata, -⟩ := read_ok hread
        unfold want at hlen
        split at hlen
        · exact nomatch hlen
        · obtain rfl := Option.some.inj hlen
          exact (List.take_eq_nil_iff.mp hdata.symm).resolve_left hzero
      · have hlength := hnext.length_le
        have hreadable := (upTo_isPrefix state.stream.readable state.stream.content).length_le
        rw [List.drop_zero] at hlength
        change _ ≤ (upTo state.stream.readable state.stream.content).length at hlength
        omega
  · rcases hstopped with ⟨-, rfl⟩ | ⟨len, hlen, hread⟩ | ⟨-, rfl⟩
    · exact hmoved.file
    · obtain ⟨-, hfile, -⟩ := read_ok hread
      rw [hfile]
      exact hmoved.file
    · exact hmoved.file

end Upload

/-! ### Whole transfers -/

/-- The destination holds what the source does, and `n` is its length. -/
def Copied (source destination : Option Bytes) (n : ℕ) : Prop :=
  destination = source ∧ source.map List.length = some n

instance (source destination : Option Bytes) (n : ℕ) : Decidable (Copied source destination n) :=
  inferInstanceAs (Decidable (_ ∧ _))

/-- There is nothing to lose, or the buffer holds something and no I/O error comes
before the end of the local stream. -/
def LosesNothing (source : Option Bytes) (opts : TransferOptions) (ioLimit : Option ℕ) : Prop :=
  source = some [] ∨ (opts.chunkSize ≠ 0 ∧ Within ioLimit (source.getD []).length)

theorem copied_iff {source arrived : Bytes} {n : ℕ} :
    Copied (some source) (some arrived) n ↔ arrived = source ∧ source.length = n := by
  rw [Copied, Option.some.injEq, Option.map_some, Option.some.injEq]

/-- With an empty buffer nothing arrives, which is all there is of an empty file. -/
theorem empty_copied_iff {source : Bytes} {opts : TransferOptions} {reachesEnd : Prop}
    (hzero : opts.chunkSize = 0) :
    ([] = source ∧ source.length = ([] : Bytes).length) ↔
      source = [] ∨ (opts.chunkSize ≠ 0 ∧ reachesEnd) := by
  constructor
  · exact fun h ↦ .inl h.1.symm
  · rintro (rfl | ⟨hne, -⟩)
    · exact ⟨rfl, rfl⟩
    · exact absurd hzero hne

/-- What can be opened without being created is there. -/
theorem tryOpen_read {sftp : SftpSession} {perms : UInt32} {file : RemoteFile}
    (h : sftp.tryOpen { read := true } perms = .ok file) :
    file.offset = 0 ∧ sftp.content = some file.content := by
  rcases sftp with ⟨_ | _, _ | content, attributes, _ | status, lastError, _, _, _⟩
  case true.some.none => 
    obtain rfl := Except.ok.inj h
    exact ⟨rfl, rfl⟩
  all_goals exact nomatch h

/-- A file that is opened for an upload is empty. -/
theorem tryOpen_upload {sftp : SftpSession} {opts : TransferOptions} {perms : UInt32}
    {file : RemoteFile} (h : sftp.tryOpen (uploadMode opts) perms = .ok file) :
    file.offset = 0 ∧ file.content = [] := by
  rcases sftp with ⟨_ | _, _ | content, attributes, _ | status, lastError, _, _, _⟩
  case true.none.none =>
    obtain rfl := Except.ok.inj h
    exact ⟨rfl, rfl⟩
  case true.some.none =>
    cases hoverwrite : opts.overwrite <;>
      simp [SftpSession.tryOpen, SftpSession.sftpOpen, uploadMode, hoverwrite] at h
    obtain rfl := h
    exact ⟨rfl, rfl⟩
  all_goals exact nomatch h

theorem preservePermissions_content (opts : TransferOptions) (file : RemoteFile)
    (destination : LocalFile) :
    (preservePermissions opts file destination).content = destination.content := by
  unfold preservePermissions
  split
  · split <;> rfl
  · rfl

theorem tryDownload_ok {sftp : SftpSession} {destination after : LocalFile}
    {opts : TransferOptions} {n : ℕ} (h : tryDownload sftp destination opts = (.ok n, after)) :
    ∃ source data, sftp.content = some source ∧
      data = (if opts.chunkSize = 0 then [] else source) ∧ n = data.length ∧
      after.content = some (({ room := destination.ioLimit } : OutStream).write data).content := by
  unfold tryDownload at h
  split at h
  · exact nomatch congrArg Prod.fst h
  split at h
  · exact nomatch congrArg Prod.fst h
  next file hopen =>
  split at h
  · exact nomatch congrArg Prod.fst h
  rcases hloop : Download.loop opts { file, out := { room := destination.ioLimit } } with
    ⟨info | total, state⟩ <;> simp only [hloop] at h <;> obtain ⟨hresult, rfl⟩ := Prod.mk.inj h
  · exact nomatch hresult
  · obtain rfl := Except.ok.inj hresult
    obtain ⟨hoffset, hcontent⟩ := tryOpen_read hopen
    obtain ⟨data, hdata, hcount, hout⟩ := Download.loop_ok hoffset hloop
    refine ⟨file.content, data, hcontent, hdata, hcount, ?_⟩
    rw [preservePermissions_content, hout]

theorem tryUpload_ok {sftp after : SftpSession} {source : LocalFile} {opts : TransferOptions}
    {n : ℕ} (h : tryUpload sftp source opts = (.ok n, after)) :
    ∃ content data, source.content = some content ∧
      data = (if opts.chunkSize = 0 then [] else upTo source.ioLimit content) ∧ n = data.length ∧
      after.content = some data := by
  unfold tryUpload at h
  split at h
  · exact nomatch congrArg Prod.fst h
  next content hcontent =>
  split at h
  · exact nomatch congrArg Prod.fst h
  next file hopen =>
  rcases hloop : Upload.loop opts { stream := { content, readable := source.ioLimit }, file } with
    ⟨info | total, state⟩ <;> simp only [hloop] at h <;> obtain ⟨hresult, rfl⟩ := Prod.mk.inj h
  · exact nomatch hresult
  · obtain rfl := Except.ok.inj hresult
    obtain ⟨hoffset, hempty⟩ := tryOpen_upload hopen
    obtain ⟨data, hdata, hcount, htook⟩ := Upload.loop_ok rfl rfl hloop
    have hsource : source.content = some content := by
      split at hcontent
      · exact hcontent
      · exact nomatch hcontent
    refine ⟨content, data, hsource, hdata, hcount, ?_⟩
    rw [htook.content, hempty, hoffset, patch_empty]

/-- A download or an upload that succeeds has copied the file and returns its
length if and only if the file is empty, or the chunk size is not zero and no
error of the local stream comes before the end of the file. -/
theorem transfer_copied_iff (sftp : SftpSession) (file : LocalFile) (opts : TransferOptions)
    (n : ℕ) :
    ((tryDownload sftp file opts).1 = .ok n →
      (Copied sftp.content (tryDownload sftp file opts).2.content n ↔
        LosesNothing sftp.content opts file.ioLimit)) ∧
    ((tryUpload sftp file opts).1 = .ok n →
      (Copied file.content (tryUpload sftp file opts).2.content n ↔
        LosesNothing file.content opts file.ioLimit)) := by
  constructor
  · intro hok
    obtain ⟨source, data, hsource, hdata, hcount, hcontent⟩ :=
      tryDownload_ok (Prod.ext hok rfl)
    rw [hsource, hcontent, copied_iff, hcount, hdata, LosesNothing, Option.some.injEq,
      Option.getD_some]
    by_cases hzero : opts.chunkSize = 0
    · rw [if_pos hzero, OutStream.write_nil]
      exact empty_copied_iff hzero
    · rw [if_neg hzero, and_iff_left rfl, OutStream.write_fresh_iff]
      exact or_congr_right (and_iff_right hzero).symm
  · intro hok
    obtain ⟨source, data, hsource, hdata, hcount, hcontent⟩ := tryUpload_ok (Prod.ext hok rfl)
    rw [hsource, hcontent, copied_iff, hcount, hdata, LosesNothing, Option.some.injEq,
      Option.getD_some]
    by_cases hzero : opts.chunkSize = 0
    · rw [if_pos hzero]
      exact empty_copied_iff hzero
    · rw [if_neg hzero]
      constructor
      · intro ⟨hall, _⟩
        exact .inr ⟨hzero, upTo_eq_self_iff.mp hall⟩
      · rintro (rfl | ⟨-, hwithin⟩)
        · have hall : upTo file.ioLimit [] = [] :=
            List.prefix_nil.mp (upTo_isPrefix file.ioLimit [])
          exact ⟨hall, by rw [hall]⟩
        · have hall := upTo_eq_self_iff.mpr hwithin
          exact ⟨hall, by rw [hall]⟩

/-- A session that serves a file without failing a request. -/
structure SftpSession.Serves (sftp : SftpSession) (content : Bytes) : Prop where
  isOpen : sftp.isOpen = true
  content : sftp.content = some content
  refusal : sftp.refusal = none
  replies : ∀ reply ∈ sftp.replies, ∃ count, reply = .bytes count

/-- The file is open and no request on it fails. -/
def Download.Willing (state : Download) : Prop :=
  state.file.isOpen = true ∧ ∀ reply ∈ state.file.replies, ∃ count, reply = .bytes count

theorem Download.Willing.read {state : Download} (h : state.Willing) (len : ℕ) :
    ∃ data after, Download.read len state = (.ok data, after) ∧ after.Willing := by
  obtain ⟨data, file, hread, hfile⟩ := RemoteFile.NeverFails.tryRead ⟨h.1, h.2⟩ len
  refine ⟨data, { state with file }, ?_, hfile.isOpen, hfile.replies⟩
  rw [Download.read, hread]

/-- A download to a new file from a session that serves it succeeds.
Assumes: there is a buffer, nobody cancels, and the local file can be opened and
written. -/
theorem tryDownload_serves {sftp : SftpSession} {content : Bytes} (h : sftp.Serves content)
    {destination : LocalFile} {opts : TransferOptions} (hchunk : opts.chunkSize ≠ 0)
    (hprogress : ∀ total, opts.cancelled "try_download" total = none)
    (hnew : destination.content = none) (hopen : destination.canOpen = true)
    (hroom : destination.ioLimit = none) :
    ∃ after, tryDownload sftp destination opts = (.ok content.length, after) ∧
      after.content = some content := by
  have hfile : sftp.tryOpen { read := true } 0 = .ok (sftp.opened content sftp.attributes) := by
    simp [SftpSession.tryOpen, SftpSession.sftpOpen, h.isOpen, h.refusal, h.content]
  obtain ⟨count, state, hloop⟩ : ∃ count state, Download.loop opts
      { file := sftp.opened content sftp.attributes, out := { room := destination.ioLimit } } =
        (.ok count, state) := by
    have hwilling : Download.Willing { file := sftp.opened content sftp.attributes
                                       out := { room := destination.ioLimit } } := ⟨rfl, h.replies⟩
    have hwrite (data : Bytes) (state : Download) (hstate : state.Willing) :
        ∃ after, Download.write data state = (.ok (), after) ∧ after.Willing := ⟨_, rfl, hstate⟩
    exact copyLoop_succeeds (fun len state hstate ↦ Download.Willing.read hstate len) hwrite
      hprogress _ hwilling
  have hrun : ∃ after, tryDownload sftp destination opts = (.ok count, after) := by
    rw [tryDownload, if_neg (by simp [hnew]), hfile]
    dsimp only
    rw [if_neg (by simp [hopen]), hloop]
    exact ⟨_, rfl⟩
  obtain ⟨after, hafter⟩ := hrun
  obtain ⟨source, data, hsource, hdata, hcount, hcontent⟩ := tryDownload_ok hafter
  obtain rfl := Option.some.inj (h.content.symm.trans hsource)
  rw [if_neg hchunk] at hdata
  subst hdata
  refine ⟨after, by rw [hafter, hcount], ?_⟩
  have hall := (OutStream.write_fresh_iff none data).mpr (.inr fun _ hroom ↦ (nomatch hroom))
  rw [hcontent, hroom, hall]

/-- A file of five bytes on a server that answers with fewer bytes than asked for. -/
def shortReplies : SftpSession where
  content := some [1, 2, 3, 4, 5]
  maxLength_pos := maxLength_default_pos
  replies := [.bytes 1, .bytes 2, .bytes 1]

/-- Short replies lose nothing in either direction. -/
theorem transfer_copied_shortReplies :
    Copied (some [1, 2, 3, 4, 5])
        (tryDownload shortReplies { path := "/tmp/a" } { chunkSize := 2 }).2.content 5 ∧
      Copied (some [6, 7, 8]) (tryUpload shortReplies
        { path := "/tmp/b", content := some [6, 7, 8], ioLimit := some 3 }
        { chunkSize := 2 }).2.content 3 := by
  constructor
  · have hdownload := (transfer_copied_iff shortReplies { path := "/tmp/a" } { chunkSize := 2 } 5).1
      (by decide +kernel)
    exact hdownload.mpr (.inr ⟨by decide, fun _ h ↦ nomatch h⟩)
  · have hupload := (transfer_copied_iff shortReplies
      { path := "/tmp/b", content := some [6, 7, 8], ioLimit := some 3 } { chunkSize := 2 } 3).2
      (by decide +kernel)
    refine hupload.mpr (.inr ⟨by decide, fun room hroom ↦ ?_⟩)
    obtain rfl := Option.mem_some.mp hroom
    decide

/-- Four bytes to a disk with room for two, four bytes through an empty buffer, and
four bytes of which two can be read: each transfer succeeds without them. -/
theorem transfer_loses_bytes :
    ((tryDownload { content := some [1, 2, 3, 4] } { path := "/tmp/a", ioLimit := some 2 }
        { chunkSize := 2 }).1 = .ok 4 ∧
      ¬ Copied (some [1, 2, 3, 4]) (tryDownload { content := some [1, 2, 3, 4] }
        { path := "/tmp/a", ioLimit := some 2 } { chunkSize := 2 }).2.content 4) ∧
    ((tryDownload { content := some [1, 2, 3, 4] } { path := "/tmp/a" } { chunkSize := 0 }).1 =
        .ok 0 ∧
      ¬ Copied (some [1, 2, 3, 4]) (tryDownload { content := some [1, 2, 3, 4] }
        { path := "/tmp/a" } { chunkSize := 0 }).2.content 0) ∧
    ((tryUpload {} { path := "/tmp/a", content := some [1, 2, 3, 4], ioLimit := some 2 }
        { chunkSize := 2 }).1 = .ok 2 ∧
      ¬ Copied (some [1, 2, 3, 4]) (tryUpload {}
        { path := "/tmp/a", content := some [1, 2, 3, 4], ioLimit := some 2 }
        { chunkSize := 2 }).2.content 2) := by
  decide +kernel

end LibSshpp.Sftp
