import LibSshpp.Sftp.Transfer

/-!
`sftp::try_read_file`: a whole remote file into a string that may not grow beyond a
limit. The limit is compared with the length of the string after each append, so that
the string can be longer than the limit by what one read delivers.
-/

set_option autoImplicit false
set_option relaxedAutoImplicit false

namespace LibSshpp.Sftp

open Program

/-- `try_read_file` between two rounds: the file, and the string it returns. -/
structure Reading where
  file : RemoteFile
  result : Bytes := []
  deriving DecidableEq, Repr

namespace Reading

/-- The length of the buffer of the reads. -/
def bufferSize : ℕ := 65536

/-- The error for a file that is too long. -/
def exceeds : ErrorInfo where
  code := .ssh .invalidArgument
  message := "file exceeds limit"
  operation := "try_read_file"

/-- The body of the loop, with the value it returns if it leaves the loop. -/
def round (limit : ℕ) : StateM Reading (Option (Result Bytes)) := fun state ↦
  match state.file.tryRead bufferSize with
  | (.error info, file) => (some (.error info), { state with file })
  | (.ok data, file) =>
    if data.length = 0 then (some (.ok state.result), { state with file })
    else
      let state : Reading := { file, result := state.result ++ data }
      if state.result.length > limit then (some (.error exceeds), state) else (none, state)

/-- The loop of `try_read_file`. Each round but the last one reads something of the
file. -/
def loop (limit : ℕ) : ℕ → StateM Reading (Result Bytes)
  | 0 => fun state ↦ (.ok state.result, state)
  | rounds + 1 => do
    match ← round limit with
    | some result => pure result
    | none => loop limit rounds

end Reading

/-- `sftp::try_read_file`, with what its string held when it returned. -/
def tryReadFile (sftp : SftpSession) (limit : ℕ) : Result Bytes × Bytes :=
  match sftp.tryOpen { read := true } 0o600 with
  | .error info => (.error info, [])
  | .ok file =>
    let (result, state) := Reading.loop limit (file.content.length + 1) { file }
    (result, state.result)

/-! ### Rounds -/

namespace Reading

/-- The bytes of the file behind the offset. -/
def unread (state : Reading) : Bytes := state.file.content.drop state.file.offset

/-- What the string holds once all the rest has been appended. -/
def whole (state : Reading) : Bytes := state.result ++ state.unread

/-- A round that appended the next bytes of the file. -/
structure Appended (before after : Reading) : Prop where
  whole : after.whole = before.whole
  unread : after.unread.length < before.unread.length
  result : after.result.length ≤ before.result.length + bufferSize

theorem appended_of_tryRead {state : Reading} {data : Bytes} {file : RemoteFile}
    (hread : state.file.tryRead bufferSize = (.ok data, file)) (hne : data.length ≠ 0) :
    state.Appended { file, result := state.result ++ data } := by
  obtain ⟨hcontent, hoffset, hnext, hlength, -⟩ := RemoteFile.tryRead_ok hread
  have hunread : state.unread =
      data ++ unread { file, result := state.result ++ data } := by
    rw [unread, unread, hcontent, hoffset, ← List.drop_drop]
    exact List.prefix_append_drop hnext
  refine ⟨?_, ?_, ?_⟩
  · rw [whole, whole, hunread, List.append_assoc]
  · rw [hunread, List.length_append]
    omega
  · rw [List.length_append]
    omega

/-- A round ends the loop with the error of its read, or at the end of the file, or it
appends the next bytes, after which the limit decides. -/
theorem round_cases {limit : ℕ} {state after : Reading} {outcome : Option (Result Bytes)}
    (h : round limit state = (outcome, after)) :
    (∃ info file, state.file.tryRead bufferSize = (.error info, file) ∧
        outcome = some (.error info) ∧ after = { state with file }) ∨
      (∃ file, state.unread = [] ∧ outcome = some (.ok state.result) ∧
        after = { state with file }) ∨
      ∃ data, state.file.tryRead bufferSize = (.ok data, after.file) ∧ state.Appended after ∧
        ((limit < after.result.length ∧ outcome = some (.error exceeds)) ∨
          (after.result.length ≤ limit ∧ outcome = none)) := by
  unfold round at h
  rcases hread : state.file.tryRead bufferSize with ⟨info | data, file⟩ <;>
    simp only [hread] at h
  · obtain ⟨rfl, rfl⟩ := Prod.mk.inj h
    exact .inl ⟨info, file, rfl, rfl, rfl⟩
  by_cases hempty : data.length = 0
  · rw [if_pos hempty] at h
    obtain ⟨rfl, rfl⟩ := Prod.mk.inj h
    obtain ⟨-, -, -, -, hend⟩ := RemoteFile.tryRead_ok hread
    exact .inr (.inl ⟨file, hend (by decide) (List.length_eq_zero_iff.mp hempty), rfl, rfl⟩)
  · rw [if_neg hempty] at h
    have happended := appended_of_tryRead hread hempty
    by_cases hlimit : (state.result ++ data).length > limit
    · rw [if_pos hlimit] at h
      obtain ⟨rfl, rfl⟩ := Prod.mk.inj h
      exact .inr (.inr ⟨data, rfl, happended, .inl ⟨hlimit, rfl⟩⟩)
    · rw [if_neg hlimit] at h
      obtain ⟨rfl, rfl⟩ := Prod.mk.inj h
      exact .inr (.inr ⟨data, rfl, happended, .inr ⟨Nat.le_of_not_lt hlimit, rfl⟩⟩)

/-! ### Runs -/

theorem loop_of_left {limit rounds : ℕ} {state after : Reading} {result : Result Bytes}
    (h : round limit state = (some result, after)) :
    loop limit (rounds + 1) state = (result, after) := by
  rw [loop, bind_of_eq h]
  rfl

theorem loop_of_next {limit rounds : ℕ} {state after : Reading}
    (h : round limit state = (none, after)) :
    loop limit (rounds + 1) state = loop limit rounds after := by
  rw [loop, bind_of_eq h]

/-- Whatever the reads do, the string grows beyond the limit by less than one buffer. -/
theorem loop_buffered {limit : ℕ} (rounds : ℕ) :
    ∀ {state : Reading}, state.result.length ≤ limit →
      (loop limit rounds state).2.result.length ≤ limit + bufferSize := by
  induction rounds with
  | zero =>
    intro state hresult
    exact hresult.trans (Nat.le_add_right _ _)
  | succ rounds ih =>
    intro state hresult
    rcases hround : round limit state with ⟨outcome, after⟩
    rcases round_cases hround with ⟨info, file, -, rfl, rfl⟩ | ⟨file, -, rfl, rfl⟩ |
      ⟨data, -, happended, ⟨-, rfl⟩ | ⟨hlimit, rfl⟩⟩
    · rw [loop_of_left hround]
      exact hresult.trans (Nat.le_add_right _ _)
    · rw [loop_of_left hround]
      exact hresult.trans (Nat.le_add_right _ _)
    · rw [loop_of_left hround]
      exact happended.result.trans (Nat.add_le_add_right hresult bufferSize)
    · rw [loop_of_next hround]
      exact ih hlimit

/-- Where no read fails, the loop returns the whole file or refuses it, and the number
of rounds is enough for all that is unread. -/
theorem loop_eq {limit : ℕ} (rounds : ℕ) :
    ∀ {state : Reading}, state.file.NeverFails → state.unread.length < rounds →
      state.result.length ≤ limit →
        (loop limit rounds state).1 =
          if state.whole.length ≤ limit then .ok state.whole else .error exceeds := by
  induction rounds with
  | zero => exact fun _ hrounds ↦ absurd hrounds (Nat.not_lt_zero _)
  | succ rounds ih =>
    intro state hfile hrounds hresult
    obtain ⟨read, file, hread, hfile'⟩ := hfile.tryRead bufferSize
    rcases hround : round limit state with ⟨outcome, after⟩
    rcases round_cases hround with ⟨info, failed, hfailed, -, -⟩ | ⟨last, hunread, rfl, rfl⟩ |
      ⟨data, hdata, happended, hlimit⟩
    · rw [hread] at hfailed
      exact nomatch congrArg Prod.fst hfailed
    · rw [loop_of_left hround, whole, hunread, List.append_nil, if_pos hresult]
    · rw [← happended.whole]
      rcases hlimit with ⟨hlimit, rfl⟩ | ⟨hlimit, rfl⟩
      · have hlong : ¬ after.whole.length ≤ limit := by
          rw [whole, List.length_append]
          omega
        rw [loop_of_left hround, if_neg hlong]
      · obtain rfl : file = after.file := congrArg Prod.snd (hread.symm.trans hdata)
        have hshorter := happended.unread
        rw [loop_of_next hround]
        exact ih hfile' (by omega) hlimit

end Reading

/-! ### Whole files -/

/-- Whatever the reads do, the string holds at most the limit and one buffer. -/
theorem tryReadFile_buffered (sftp : SftpSession) (limit : ℕ) :
    (tryReadFile sftp limit).2.length ≤ limit + 65536 := by
  unfold tryReadFile
  split
  · exact Nat.zero_le _
  next file _ =>
  have hempty : ({ file } : Reading).result.length ≤ limit := Nat.zero_le limit
  exact Reading.loop_buffered (file.content.length + 1) hempty

theorem tryReadFile_serves {sftp : SftpSession} {content : Bytes} (h : sftp.Serves content)
    (limit : ℕ) : (tryReadFile sftp limit).1 =
      if content.length ≤ limit then .ok content else .error Reading.exceeds := by
  have hfile : sftp.tryOpen { read := true } 0o600 = .ok (sftp.opened content sftp.attributes) := by
    simp [SftpSession.tryOpen, SftpSession.sftpOpen, h.isOpen, h.refusal, h.content]
  have hloop : (Reading.loop limit (content.length + 1)
      { file := sftp.opened content sftp.attributes }).1 = _ :=
    Reading.loop_eq _ ⟨rfl, h.replies⟩ (Nat.lt_succ_self _) (Nat.zero_le _)
  rw [tryReadFile, hfile]
  exact hloop

/-- Reading a file from a session that serves it returns exactly its content if that is
within the limit, and else an error, with at most the limit and one buffer read. -/
theorem tryReadFile_exact {sftp : SftpSession} {content : Bytes} (h : sftp.Serves content)
    (limit : ℕ) :
    ((∃ data, (tryReadFile sftp limit).1 = .ok data) ↔ content.length ≤ limit) ∧
      (∀ data, (tryReadFile sftp limit).1 = .ok data → data = content) ∧
      (limit < content.length → (∃ info, (tryReadFile sftp limit).1 = .error info) ∧
        (tryReadFile sftp limit).2.length ≤ limit + 65536) := by
  rw [tryReadFile_serves h limit]
  by_cases hlimit : content.length ≤ limit
  · rw [if_pos hlimit]
    refine ⟨iff_of_true ⟨content, rfl⟩ hlimit, fun data hdata ↦ ?_, fun hlong ↦ ?_⟩
    · exact (Except.ok.inj hdata).symm
    · exact absurd hlimit (Nat.not_le.mpr hlong)
  · rw [if_neg hlimit]
    refine ⟨iff_of_false (fun ⟨data, hdata⟩ ↦ (nomatch hdata)) hlimit,
      fun data hdata ↦ (nomatch hdata), fun _ ↦ ⟨⟨_, rfl⟩, tryReadFile_buffered sftp limit⟩⟩

/-- The file of five bytes that arrives in short replies is read with a limit of five,
and not with a limit of four. -/
theorem tryReadFile_shortReplies :
    (∃ data, (tryReadFile shortReplies 5).1 = .ok data) ∧
      (∃ info, (tryReadFile shortReplies 4).1 = .error info) := by
  have hserves : shortReplies.Serves [1, 2, 3, 4, 5] := ⟨rfl, rfl, rfl, by simp [shortReplies]⟩
  obtain ⟨hsuccess, -, -⟩ := tryReadFile_exact hserves 5
  obtain ⟨-, -, hrefused⟩ := tryReadFile_exact hserves 4
  exact ⟨hsuccess.mpr (by decide), (hrefused (by decide)).1⟩

end LibSshpp.Sftp
