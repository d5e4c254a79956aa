import LibSshpp.Program.Scripted
import LibSshpp.Sftp.RemoteFile

/-!
The calls a program makes on an open `File`. They come down to a few operations, which are a
parameter here: the file may be one of a server that reads its answers off a schedule, or one
of a server that is there.
-/

set_option autoImplicit false
set_option relaxedAutoImplicit false

namespace LibSshpp.Sftp

open Program

/-- The operations of `File` that the other ones are made of. -/
structure FileOps (σ : Type) where
  tryRead : ℕ → StateM σ (Result Bytes)
  tryWrite : Bytes → StateM σ (Result ℕ)
  trySeek : UInt64 → StateM σ (Result Unit)
  tryRewind : StateM σ (Result Unit)
  tryTell : StateM σ (Result ℕ)

namespace FileOps

variable {σ : Type} (ops : FileOps σ)

def unexpectedEof : ErrorInfo where
  code := .ssh .channelEof
  message := "unexpected EOF"
  operation := "File::try_read_exact"

/-- The loop of `File::try_read_exact` into a buffer of a length, the front of which holds what
was got. Its front is returned with the result. -/
def readExactLoop (length : ℕ) (got : Bytes) : StateM σ (Result Unit × Bytes) :=
  if got.length < length then do
    match ← ops.tryRead (length - got.length) with
    | .error info => return (.error info, got)
    | .ok [] => return (.error unexpectedEof, got)
    | .ok (byte :: more) => readExactLoop length (got ++ byte :: more)
  else return (.ok (), got)
termination_by length - got.length
decreasing_by
  rw [List.length_append, List.length_cons]
  omega

/-- `File::try_read_exact`. -/
def tryReadExact (length : ℕ) : StateM σ (Result Unit × Bytes) := ops.readExactLoop length []

/-- `File::try_write_all`. -/
def tryWriteAll : Bytes → StateM σ (Result Unit) :=
  writeAll {
    code := .ssh .channelClosed, message := "short write"
    operation := "File::try_write_all" } ops.tryWrite

end FileOps

inductive FileCall
  | read (length : ℕ)
  | readExact (length : ℕ)
  | write (data : Bytes)
  | writeAll (data : Bytes)
  | seek (offset : UInt64)
  | rewind
  | tell
  deriving DecidableEq, Repr

inductive FileAnswer
  | read (result : Result Bytes)
  | filled (result : Result Unit × Bytes)
  | written (result : Result ℕ)
  | done (result : Result Unit)
  | position (result : Result ℕ)
  deriving DecidableEq

/-- Makes a call. -/
def FileOps.call {σ : Type} (ops : FileOps σ) : FileCall → StateM σ FileAnswer
  | .read length => FileAnswer.read <$> ops.tryRead length
  | .readExact length => FileAnswer.filled <$> ops.tryReadExact length
  | .write data => FileAnswer.written <$> ops.tryWrite data
  | .writeAll data => FileAnswer.done <$> ops.tryWriteAll data
  | .seek offset => FileAnswer.done <$> ops.trySeek offset
  | .rewind => FileAnswer.done <$> ops.tryRewind
  | .tell => FileAnswer.position <$> ops.tryTell

/-- A `try_read` into an empty buffer cannot be told from one at the end of the file. -/
def FileCall.Asks : FileCall → Prop
  | .read length => 0 < length
  | _ => True

/-! ### A file of a scheduled server -/

namespace RemoteFile

/-- Sets the offset of an open file, which asks nobody. -/
def placeAt (operation : String) (offset : UInt64) : StateM RemoteFile (Result Unit) := fun file ↦
  if file.isOpen = false then
    (.error { code := .ssh .invalidHandle, operation := operation }, file)
  else (.ok (), { file with offset := offset.toNat })

/-- `File::try_seek`. -/
def trySeek (offset : UInt64) : StateM RemoteFile (Result Unit) := placeAt "File::try_seek" offset

/-- `File::try_rewind`. -/
def tryRewind : StateM RemoteFile (Result Unit) := placeAt "File::try_rewind" 0

/-- `File::try_tell`. -/
def tryTell : StateM RemoteFile (Result ℕ) := fun file ↦
  if file.isOpen = false then
    (.error { code := .ssh .invalidHandle, operation := "File::try_tell" }, file)
  else (.ok file.offset, file)

def ops : FileOps RemoteFile where
  tryRead length := fun file ↦ file.tryRead length
  tryWrite := tryWrite
  trySeek := trySeek
  tryRewind := tryRewind
  tryTell := tryTell

/-- The file of a server whose answers to come are the given ones. -/
def feed (file : RemoteFile) (replies : List Reply) : RemoteFile := { file with replies := replies }

/-- What a `try_read_exact` puts into the buffer is what stands at the offset of the file, all of
it after a success. -/
theorem readExactLoop_range {length : ℕ} {got : Bytes} (file : RemoteFile)
    (hgot : got.length ≤ length) :
    ∃ more, (ops.readExactLoop length got file).1.2 = got ++ more ∧
      more <+: (file.content.drop file.offset).take (length - got.length) ∧
      ((ops.readExactLoop length got file).1.1 = .ok () → got.length + more.length = length) := by
  rw [FileOps.readExactLoop]
  by_cases hleft : got.length < length
  · rw [if_pos hleft]
    rcases hread : file.tryRead (length - got.length) with ⟨info | _ | ⟨byte, more⟩, after⟩
    · rw [bind_of_eq (hread : ops.tryRead (length - got.length) file = _)]
      exact ⟨[], (List.append_nil got).symm, List.nil_prefix, nofun⟩
    · rw [bind_of_eq (hread : ops.tryRead (length - got.length) file = _)]
      exact ⟨[], (List.append_nil got).symm, List.nil_prefix, nofun⟩
    · rw [bind_of_eq (hread : ops.tryRead (length - got.length) file = _)]
      obtain ⟨hcontent, hoffset, hprefix, hlength, -⟩ := tryRead_ok hread
      have hgot' : (got ++ byte :: more).length ≤ length := by
        rw [List.length_append]
        omega
      obtain ⟨later, hbuffer, hlater, hall⟩ := readExactLoop_range after hgot'
      obtain ⟨tail, htail⟩ := hprefix
      refine ⟨byte :: more ++ later, ?_, ?_, fun hok ↦ ?_⟩
      · rw [← List.append_assoc]
        exact hbuffer
      · have hdrop : after.content.drop after.offset = tail := by
          rw [hcontent, hoffset, ← List.drop_drop, ← htail, List.drop_left]
        rw [hdrop, List.length_append, Nat.sub_add_eq] at hlater
        rw [← htail, List.take_append, List.take_of_length_le hlength]
        exact (List.prefix_append_right_inj _).mpr hlater
      · have := hall hok
        rw [List.length_append] at this
        rw [List.length_append]
        omega
  · rw [if_neg hleft]
    refine ⟨[], (List.append_nil got).symm, List.nil_prefix, fun _ ↦ ?_⟩
    rw [List.length_nil]
    omega
termination_by length - got.length
decreasing_by
  rw [List.length_append, List.length_cons]
  omega

theorem placeAt_ok {operation : String} {offset : UInt64} {file : RemoteFile}
    (h : (placeAt operation offset file).1 = .ok ()) :
    (placeAt operation offset file).2.content = file.content ∧
      (placeAt operation offset file).2.offset = offset.toNat := by
  unfold placeAt at h ⊢
  by_cases hopen : file.isOpen = false
  · rw [if_pos hopen] at h
    exact nomatch h
  · rw [if_neg hopen]
    exact ⟨rfl, rfl⟩

/-- What was written is what is read where it was written. -/
theorem readBack {file : RemoteFile} {offset : UInt64} {data buffer : Bytes} {result : Result Unit}
    (hoffset : file.offset = offset.toNat)
    (h : (answersTo ops.call [.writeAll data, .seek offset, .readExact data.length] file).1 =
      [.done (.ok ()), .done (.ok ()), .filled (result, buffer)]) :
    buffer <+: data ∧ (result = .ok () → buffer = data) := by
  rw [answersTo_cons, answersTo_cons, answersTo_cons] at h
  obtain ⟨hwrite, h⟩ := List.cons.inj h
  obtain ⟨hseek, h⟩ := List.cons.inj h
  obtain ⟨hread, -⟩ := List.cons.inj h
  have hwritten : tryWriteAll data file = (.ok (), (tryWriteAll data file).2) :=
    Prod.ext (FileAnswer.done.inj hwrite) rfl
  have htook := tryWriteAll_ok hwritten
  obtain ⟨hcontent, hplace⟩ : (trySeek offset (tryWriteAll data file).2).2.content =
      (tryWriteAll data file).2.content ∧
        (trySeek offset (tryWriteAll data file).2).2.offset = offset.toNat :=
    placeAt_ok (FileAnswer.done.inj hseek)
  have hfilled : (ops.readExactLoop data.length []
      (trySeek offset (tryWriteAll data file).2).2).1 = (result, buffer) :=
    FileAnswer.filled.inj hread
  have hnone : ([] : Bytes).length ≤ data.length := Nat.zero_le data.length
  obtain ⟨more, hbuffer, hmore, hall⟩ :=
    readExactLoop_range (trySeek offset (tryWriteAll data file).2).2 hnone
  have hrange : ((trySeek offset (tryWriteAll data file).2).2.content.drop
      (trySeek offset (tryWriteAll data file).2).2.offset).take data.length = data := by
    rw [hcontent, hplace, htook.content, hoffset]
    exact range_patch 0 file.content data offset.toNat
  rw [hfilled] at hbuffer hall
  rw [List.length_nil, Nat.sub_zero, hrange] at hmore
  obtain rfl : buffer = more := hbuffer
  exact ⟨hmore, fun hok ↦ hmore.eq_of_length ((Nat.zero_add _).symm.trans (hall hok))⟩

end RemoteFile

/-! ### Calls that go together -/

section Scripts

variable {σ ρ ω : Type} {feed : ρ → List ω → ρ} {related : σ → ρ → Prop} {ops : FileOps σ}
  {other : FileOps ρ}

/-- Operations that go together with others. -/
structure FileOps.Scripted (feed : ρ → List ω → ρ) (related : σ → ρ → Prop) (ops : FileOps σ)
    (other : FileOps ρ) : Prop where
  tryRead : ∀ length, 0 < length →
    Scripts feed related (ops.tryRead length) (other.tryRead length)
  tryWrite : ∀ data, Scripts feed related (ops.tryWrite data) (other.tryWrite data)
  trySeek : ∀ offset, Scripts feed related (ops.trySeek offset) (other.trySeek offset)
  tryRewind : Scripts feed related ops.tryRewind other.tryRewind
  tryTell : Scripts feed related ops.tryTell other.tryTell

theorem FileOps.Scripted.readExactLoop (h : ops.Scripted feed related other) (length : ℕ)
    (got : Bytes) :
    Scripts feed related (ops.readExactLoop length got) (other.readExactLoop length got) := by
  rw [FileOps.readExactLoop, FileOps.readExactLoop]
  by_cases hleft : got.length < length
  · rw [if_pos hleft, if_pos hleft]
    refine Scripts.bind (h.tryRead _ (by omega)) fun result ↦ ?_
    rcases result with info | _ | ⟨byte, more⟩
    · exact Scripts.pure _
    · exact Scripts.pure _
    · exact h.readExactLoop length (got ++ byte :: more)
  · rw [if_neg hleft, if_neg hleft]
    exact Scripts.pure _
termination_by length - got.length
decreasing_by
  rw [List.length_append, List.length_cons]
  omega

/-- Every call goes together with the same call on the other side. -/
theorem FileOps.Scripted.call (h : ops.Scripted feed related other) {call : FileCall}
    (hasks : call.Asks) : Scripts feed related (ops.call call) (other.call call) := by
  cases call with
  | read length => exact Scripts.map _ (h.tryRead length hasks)
  | readExact length => exact Scripts.map _ (h.readExactLoop length [])
  | write data => exact Scripts.map _ (h.tryWrite data)
  | writeAll data => exact Scripts.map _ (Scripts.writeAll h.tryWrite data)
  | seek offset => exact Scripts.map _ (h.trySeek offset)
  | rewind => exact Scripts.map _ h.tryRewind
  | tell => exact Scripts.map _ h.tryTell

end Scripts

end LibSshpp.Sftp
