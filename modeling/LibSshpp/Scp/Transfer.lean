import LibSshpp.Foundation.Error
import LibSshpp.Posix.FileStream
import LibSshpp.Program.CopyLoop

/-!
Receiving a file over SCP: `scp::Reader::try_read_to` into a stream of the caller
and `scp::try_download` into a local file. Both read up to the size the peer
announces and stop before it when a read delivers nothing; unlike the writer's
loop they do not look at why they stopped, nor at the state of the stream.
-/

set_option autoImplicit false
set_option relaxedAutoImplicit false

namespace LibSshpp.Scp

open Posix Program

inductive RequestType
  | newFile | newDirectory | endDirectory | eof | warning
  deriving DecidableEq, Repr

structure Request where
  type : RequestType := .eof
  name : Bytes := []
  size : ℕ := 0
  permissions : UInt32 := 0
  warning : Bytes := []
  deriving DecidableEq, Repr

structure Progress where
  bytesDone : ℕ := 0
  bytesTotal : Option ℕ := none

/-- What `ssh_scp_pull_request` returns. -/
inductive PullCode
  | eof | error | newDirectory | newFile | endDirectory | warning | other
  deriving DecidableEq, Repr

/-- A `Reader` as one transfer meets it: whether libssh made the handle, the results
of `ssh_scp_init`, `ssh_scp_pull_request` with its details and
`ssh_scp_accept_request`, the bytes the peer sends before it stops, and how the
reads go, each with an error or with so many bytes at most. Reads beyond the list
deliver all they can, and a read delivers nothing only after the peer stopped. -/
structure Reader where
  hasHandle : Bool := true
  initOk : Bool := true
  pullCode : PullCode := .newFile
  filename : Option Bytes := none
  permissions : UInt32 := 0
  size : ℕ := 0
  warning : Option Bytes := none
  acceptOk : Bool := true
  incoming : Bytes := []
  reads : List (Option ℕ) := []
  lastError : SshError := {}
  deriving DecidableEq, Repr

/-- `is_safe_entry_name`. -/
def isSafeEntryName (name : Bytes) : Bool :=
  name ≠ [] && name ≠ ascii "." && name ≠ ascii ".." && !name.contains 0x2f

namespace Reader

def tryInit (reader : Reader) : Result Unit :=
  if reader.hasHandle = false then
    .error { code := .ssh .scpError, operation := "Reader::try_init" }
  else if reader.initOk then .ok ()
  else .error (makeErrorInfo reader.lastError "ssh_scp_init" .scpError)

/-- The request of a pull that is neither the end nor an error. -/
def request (reader : Reader) (type : RequestType) : Request where
  type
  name := reader.filename.getD []
  permissions := reader.permissions &&& 0o7777
  size := if type = .newFile then reader.size else 0
  warning := if type = .warning then reader.warning.getD [] else []

def tryNext (reader : Reader) : Result (Option Request) :=
  if reader.hasHandle = false then
    .error { code := .ssh .invalidHandle, operation := "Reader::try_next" }
  else match reader.pullCode with
    | .eof => .ok none
    | .newDirectory => .ok (some (reader.request .newDirectory))
    | .newFile => .ok (some (reader.request .newFile))
    | .endDirectory => .ok (some (reader.request .endDirectory))
    | .warning => .ok (some (reader.request .warning))
    | .error | .other => .error (makeErrorInfo reader.lastError "ssh_scp_pull_request" .scpError)

def tryAccept (reader : Reader) : Result Unit :=
  if reader.hasHandle = false then
    .error { code := .ssh .invalidHandle, operation := "Reader::try_accept" }
  else if reader.acceptOk then .ok ()
  else .error (makeErrorInfo reader.lastError "ssh_scp_accept_request" .scpError)

/-- `ssh_scp_read`. -/
def sshScpRead (reader : Reader) (len : ℕ) : Option Bytes × Reader :=
  match reader.reads.head? with
  | some none => (none, { reader with reads := reader.reads.tail })
  | some (some atMost) =>
    let count := min len (max 1 atMost)
    (some (reader.incoming.take count), { reader with
      incoming := reader.incoming.drop count, reads := reader.reads.tail })
  | none =>
    (some (reader.incoming.take len), { reader with incoming := reader.incoming.drop len })

def tryRead (reader : Reader) (len : ℕ) : Result Bytes × Reader :=
  if reader.hasHandle = false then
    (.error { code := .ssh .invalidHandle, operation := "Reader::try_read" }, reader)
  else match reader.sshScpRead len with
    | (none, reader) =>
      (.error (makeErrorInfo reader.lastError "ssh_scp_read" .scpError), reader)
    | (some data, reader) => (.ok data, reader)

end Reader

/-! ### The loop -/

def bufferSize : ℕ := 64 * 1024

structure Receive where
  reader : Reader
  out : OutStream
  deriving DecidableEq, Repr

namespace Receive

/-- The condition of the loop, with the length of its read. -/
def want (size : ℕ) (_ : Receive) (total : ℕ) : Option ℕ :=
  if total < size then some (min bufferSize (size - total)) else none

def read (len : ℕ) : StateM Receive (Result Bytes) := fun state ↦
  let (result, reader) := state.reader.tryRead len
  (result, { state with reader })

/-- `out.write`, whose outcome is not looked at. -/
def write (data : Bytes) : StateM Receive (Result Unit) := fun state ↦
  (.ok (), { state with out := state.out.write data })

/-- The error the callback ends a transfer with, if it does. -/
def cancelled (progress : Option (Progress → Bool)) (size : ℕ) (operation : String)
    (bytesDone : ℕ) : Option ErrorInfo :=
  match progress with
  | none => none
  | some progress =>
    if progress { bytesDone, bytesTotal := some size } then none
    else some { code := .ssh .cancelled, operation }

/-- The loop both functions have. Each round reads something of the announced
size. -/
def loop (progress : Option (Progress → Bool)) (size : ℕ) (operation : String) :
    StateM Receive (Result ℕ) :=
  copyLoop (want size) read write (cancelled progress size operation) size 0

end Receive

/-- `Reader::try_read_to`. -/
def tryReadTo (progress : Option (Progress → Bool)) : StateM Receive (Result ℕ) := fun state ↦
  match state.reader.tryNext with
  | .error info => (.error info, state)
  | .ok none =>
    (.error {
      code := .ssh .scpError, message := "expected a file request"
      operation := "Reader::try_read_to" }, state)
  | .ok (some request) =>
    if request.type ≠ .newFile then
      (.error {
        code := .ssh .scpError, message := "expected a file request"
        operation := "Reader::try_read_to" }, state)
    else match state.reader.tryAccept with
      | .error info => (.error info, state)
      | .ok () => Receive.loop progress request.size "Reader::try_read_to" state

/-- `scp::try_download`, with the reader it constructs. -/
def tryDownload (reader : Reader) (destination : LocalFile) (progress : Option (Progress → Bool)) :
    Result ℕ × LocalFile :=
  match reader.tryInit with
  | .error info => (.error info, destination)
  | .ok () =>
    match reader.tryNext with
    | .error info => (.error info, destination)
    | .ok none =>
      (.error {
        code := .ssh .scpError, message := "unexpected or unsafe remote entry"
        operation := "scp::try_download" }, destination)
    | .ok (some request) =>
      if isSafeEntryName request.name = false then
        (.error {
          code := .ssh .scpError, message := "unexpected or unsafe remote entry"
          operation := "scp::try_download" }, destination)
      else if request.type ≠ .newFile then
        (.error {
          code := .ssh .scpError, message := "remote path is not a regular file"
          operation := "scp::try_download" }, destination)
      else match reader.tryAccept with
        | .error info => (.error info, destination)
        | .ok () =>
          if destination.canOpen = false then
            (.error {
              code := .ssh .invalidArgument, message := "cannot open " ++ destination.path
              operation := "scp::try_download" }, destination)
          else
            let (result, state) := Receive.loop progress request.size "scp::try_download" {
              reader, out := { room := destination.ioLimit } }
            (result, { destination with content := some state.out.content })

/-! ### What the loop receives -/

/-- A read delivers the next bytes the peer sent, no more than asked for, and
nothing only after the last of them. -/
theorem Reader.tryRead_ok {reader after : Reader} {len : ℕ} {data : Bytes}
    (h : reader.tryRead len = (.ok data, after)) :
    data ++ after.incoming = reader.incoming ∧ data.length ≤ len ∧
      (0 < len → data = [] → reader.incoming = []) := by
  by_cases hhandle : reader.hasHandle = false
  · rw [tryRead, if_pos hhandle] at h
    exact nomatch congrArg Prod.fst h
  rw [tryRead, if_neg hhandle] at h
  unfold sshScpRead at h
  rcases hread : reader.reads.head? with _ | _ | atMost <;> simp only [hread] at h <;>
    obtain ⟨hdata, rfl⟩ := Prod.mk.inj h
  · obtain rfl := Except.ok.inj hdata
    refine ⟨List.take_append_drop _ _, List.length_take_le _ _, fun hlen hnil ↦ ?_⟩
    exact (List.take_eq_nil_iff.mp hnil).resolve_left hlen.ne'
  · exact nomatch hdata
  · obtain rfl := Except.ok.inj hdata
    refine ⟨List.take_append_drop _ _, ?_, fun hlen hnil ↦ ?_⟩
    · have hlength := List.length_take_le (min len (max 1 atMost)) reader.incoming
      omega
    · exact (List.take_eq_nil_iff.mp hnil).resolve_left (by omega)

namespace Receive

/-- The data was the next of what the peer sent and was given to the stream. -/
structure Moved (before : Receive) (data : Bytes) (after : Receive) : Prop where
  incoming : data ++ after.reader.incoming = before.reader.incoming
  out : after.out = before.out.write data

theorem read_ok {len : ℕ} {data : Bytes} {state after : Receive}
    (h : read len state = (.ok data, after)) :
    ∃ reader, state.reader.tryRead len = (.ok data, reader) ∧ after = { state with reader } := by
  obtain ⟨hresult, rfl⟩ := Prod.mk.inj h
  exact ⟨_, Prod.ext hresult rfl, rfl⟩

theorem copies (size : ℕ) : Copies (want size) read write Moved where
  refl := fun state ↦ ⟨rfl, (OutStream.write_nil _).symm⟩
  trans := by
    intro before middle after first second hfirst hsecond
    constructor
    · rw [List.append_assoc, hsecond.incoming, hfirst.incoming]
    · rw [hsecond.out, hfirst.out, OutStream.write_append]
  step := by
    intro state middle after total len data _ hread _ hwrite
    obtain ⟨reader, hreader, rfl⟩ := read_ok hread
    obtain ⟨-, rfl⟩ := Prod.mk.inj hwrite
    exact ⟨(Reader.tryRead_ok hreader).1, rfl⟩

theorem want_eq_some {size total len : ℕ} {state : Receive}
    (h : want size state total = some len) :
    total < size ∧ 0 < len ∧ total + len ≤ size := by
  unfold want at h
  split at h
  · next hlt =>
    obtain rfl := Option.some.inj h
    unfold bufferSize
    omega
  · exact nomatch h

/-- A loop that succeeds has given to the stream what the peer sent, up to the
announced size. -/
theorem loop_ok {progress : Option (Progress → Bool)} {size count : ℕ} {operation : String}
    {state after : Receive} (h : loop progress size operation state = (.ok count, after)) :
    count = (state.reader.incoming.take size).length ∧
      after.out = state.out.write (state.reader.incoming.take size) := by
  obtain ⟨data, last, hmoved, hcount, hstopped⟩ := (copies size).copyLoop_ok _ h
  have hbound : count ≤ size := by
    refine copyLoop_le (fun hlen ↦ (want_eq_some hlen).2.2) (fun hread ↦ ?_) size (Nat.zero_le _) h
    obtain ⟨reader, hreader, -⟩ := read_ok hread
    exact (Reader.tryRead_ok hreader).2.1
  rw [Nat.zero_add] at hcount
  have hout : after.out = last.out := by
    rcases hstopped with ⟨-, rfl⟩ | ⟨len, hlen, hread⟩ | ⟨-, rfl⟩
    · rfl
    · obtain ⟨reader, -, rfl⟩ := read_ok hread
      rfl
    · rfl
  have hdata : data = state.reader.incoming.take size := by
    have hfull : size ≤ data.length → data = state.reader.incoming.take size := by
      intro hsize
      rw [← hmoved.incoming, List.take_append_of_le_length hsize, List.take_of_length_le]
      omega
    rcases hstopped with ⟨hnone, -⟩ | ⟨len, hlen, hread⟩ | ⟨hrounds, -⟩
    · apply hfull
      by_contra hless
      rw [want, if_pos (by omega)] at hnone
      exact nomatch hnone
    · obtain ⟨hless, hpos, -⟩ := want_eq_some hlen
      obtain ⟨reader, hreader, -⟩ := read_ok hread
      have hnothing := (Reader.tryRead_ok hreader).2.2 hpos rfl
      have hincoming := hmoved.incoming
      rw [hnothing, List.append_nil] at hincoming
      rw [← hincoming, List.take_of_length_le (by omega)]
    · exact hfull hrounds
  rw [hcount, hout, hmoved.out, hdata]
  exact ⟨rfl, rfl⟩

end Receive

/-- A request for a file announces the size the peer sent. -/
theorem Reader.tryNext_ok {reader : Reader} {request : Request}
    (h : reader.tryNext = .ok (some request)) (htype : ¬ request.type ≠ .newFile) :
    request.size = reader.size := by
  by_cases hhandle : reader.hasHandle = false
  · rw [tryNext, if_pos hhandle] at h
    exact nomatch h
  rw [tryNext, if_neg hhandle] at h
  cases hcode : reader.pullCode <;> simp only [hcode] at h
  case newFile =>
    obtain rfl := Option.some.inj (Except.ok.inj h)
    rfl
  case newDirectory | endDirectory | warning =>
    obtain rfl := Option.some.inj (Except.ok.inj h)
    exact absurd (fun hfile ↦ nomatch hfile) htype
  all_goals exact nomatch h

theorem tryReadTo_ok {progress : Option (Progress → Bool)} {state after : Receive} {n : ℕ}
    (h : tryReadTo progress state = (.ok n, after)) :
    n = (state.reader.incoming.take state.reader.size).length ∧
      after.out = state.out.write (state.reader.incoming.take state.reader.size) := by
  unfold tryReadTo at h
  split at h
  · exact nomatch congrArg Prod.fst h
  · exact nomatch congrArg Prod.fst h
  next request hnext =>
  split at h
  · exact nomatch congrArg Prod.fst h
  next htype =>
  split at h
  · exact nomatch congrArg Prod.fst h
  · rw [Reader.tryNext_ok hnext htype] at h
    exact Receive.loop_ok h

theorem tryDownload_ok {progress : Option (Progress → Bool)} {reader : Reader}
    {destination after : LocalFile} {n : ℕ}
    (h : tryDownload reader destination progress = (.ok n, after)) :
    n = (reader.incoming.take reader.size).length ∧
      after.content = some (({ room := destination.ioLimit } : OutStream).write
        (reader.incoming.take reader.size)).content := by
  unfold tryDownload at h
  split at h
  · exact nomatch congrArg Prod.fst h
  split at h
  · exact nomatch congrArg Prod.fst h
  · exact nomatch congrArg Prod.fst h
  next request hnext =>
  split at h
  · exact nomatch congrArg Prod.fst h
  split at h
  · exact nomatch congrArg Prod.fst h
  next htype =>
  split at h
  · exact nomatch congrArg Prod.fst h
  split at h
  · exact nomatch congrArg Prod.fst h
  rw [Reader.tryNext_ok hnext htype] at h
  rcases hloop : Receive.loop progress reader.size "scp::try_download" {
    reader, out := { room := destination.ioLimit } } with ⟨result, state⟩
  simp only [hloop] at h
  obtain ⟨rfl, rfl⟩ := Prod.mk.inj h
  obtain ⟨hcount, hout⟩ := Receive.loop_ok hloop
  exact ⟨hcount, congrArg (fun out ↦ some out.content) hout⟩

/-! ### Whole transfers -/

/-- A transfer that succeeds returns the announced size and has written the bytes
received to the output in order if and only if the peer does not stop before the
announced size and the output has room for it; this for a stream of the caller and
for a download alike. -/
theorem receive_complete_iff (reader : Reader) (out : OutStream) (destination : LocalFile)
    (progress : Option (Progress → Bool)) (n : ℕ) :
    ((tryReadTo progress { reader, out }).1 = .ok n →
      (n = reader.size ∧ (tryReadTo progress { reader, out }).2.out.content =
          out.content ++ reader.incoming.take n ↔
        reader.size ≤ reader.incoming.length ∧ out.Takes reader.size)) ∧
    ((tryDownload reader destination progress).1 = .ok n →
      (n = reader.size ∧ (tryDownload reader destination progress).2.content =
          some (reader.incoming.take n) ↔
        reader.size ≤ reader.incoming.length ∧
          (reader.size = 0 ∨ Within destination.ioLimit reader.size))) := by
  have hlength : (reader.incoming.take reader.size).length = reader.size ↔
      reader.size ≤ reader.incoming.length := by
    rw [List.length_take]
    omega
  constructor
  · intro hok
    obtain ⟨hcount, hout⟩ := tryReadTo_ok (Prod.ext hok rfl)
    rw [hout]
    constructor
    · rintro ⟨rfl, hcontent⟩
      rw [OutStream.write_content_iff, ← hcount] at hcontent
      exact ⟨hlength.mp hcount.symm, hcontent⟩
    · rintro ⟨hsize, htakes⟩
      have hn : n = reader.size := hcount.trans (hlength.mpr hsize)
      refine ⟨hn, ?_⟩
      rw [hn, OutStream.write_content_iff, hlength.mpr hsize]
      exact htakes
  · intro hok
    obtain ⟨hcount, hcontent⟩ := tryDownload_ok (Prod.ext hok rfl)
    rw [hcontent, Option.some.injEq]
    constructor
    · rintro ⟨rfl, harrived⟩
      rw [OutStream.write_fresh_iff, ← hcount, ← List.length_eq_zero_iff, ← hcount] at harrived
      exact ⟨hlength.mp hcount.symm, harrived⟩
    · rintro ⟨hsize, hroom⟩
      have hn : n = reader.size := hcount.trans (hlength.mpr hsize)
      refine ⟨hn, ?_⟩
      rw [hn, OutStream.write_fresh_iff, ← List.length_eq_zero_iff, hlength.mpr hsize]
      exact hroom

/-- A peer that announces five bytes and sends them in pieces. -/
def wholeFile : Reader where
  filename := some (ascii "a")
  size := 5
  incoming := [1, 2, 3, 4, 5]
  reads := [some 2, some 1]

theorem receive_complete_wholeFile :
    (tryReadTo none { reader := wholeFile, out := {} }).2.out.content = [1, 2, 3, 4, 5] ∧
      (tryDownload wholeFile { path := "/tmp/a" } none).2.content = some [1, 2, 3, 4, 5] := by
  have hroom : ∀ n, Within none n := fun _ _ h ↦ nomatch h
  have hcomplete := receive_complete_iff wholeFile {} { path := "/tmp/a" } none 5
  have hread := (hcomplete.1 (by decide +kernel)).mpr ⟨by decide, .inr ⟨rfl, hroom 5⟩⟩
  have hdownload := (hcomplete.2 (by decide +kernel)).mpr ⟨by decide, .inr (hroom 5)⟩
  exact ⟨hread.2, hdownload.2⟩

/-- A peer that announces five bytes and stops after two. -/
def stopsEarly : Reader where
  filename := some (ascii "a")
  size := 5
  incoming := [1, 2]

/-- The truncated file is a success of both functions. -/
theorem stopsEarly_succeeds :
    (tryReadTo none { reader := stopsEarly, out := {} }).1 = .ok 2 ∧
      (tryDownload stopsEarly { path := "/tmp/a" } none).1 = .ok 2 ∧ 2 ≠ stopsEarly.size := by
  decide +kernel

end LibSshpp.Scp
