import LibSshpp.Exec.Output

/-!
`Channel::try_wait_exit`, which drains both streams until libssh reports the end of the
channel and then takes its exit state. Every round waits twice, and each wait is measured by
the timeout the caller gave and not by what is left of it.
-/

set_option autoImplicit false
set_option relaxedAutoImplicit false

namespace LibSshpp.Exec

open Program

/-- What a round of the drain meets: whether libssh says before it that the end of file was
received or the channel closed, and what the two reads return. -/
structure DrainRound where
  eof : Bool := false
  closed : Bool := false
  stdoutRead : ℤ := 0
  stderrRead : ℤ := 0

/-- A call of `ssh_channel_read_timeout`, as far as its time goes. -/
structure ReadCall where
  stream : Stream
  timeoutMs : ℤ
  deriving DecidableEq, Repr

/-- `ssh_channel_read_timeout`: the call is noted, and returns what the round says. -/
def readTimeout (stream : Stream) (timeoutMs returns : ℤ) : StateM (List ReadCall) ℤ :=
  fun calls ↦ (returns, calls ++ [⟨stream, timeoutMs⟩])

/-- The time each read of the drain is given. -/
def drainTimeout (deadlineMs : ℤ) : ℤ :=
  if deadlineMs < 0 then 1000 else min deadlineMs 1000

/-- The loop of `try_wait_exit` from round `guard` on, with so many rounds left. The data is
dropped, and so is what the reads return. -/
def drainLoop (deadlineMs : ℤ) (peer : ℕ → DrainRound) : ℕ → ℕ → StateM (List ReadCall) Unit
  | 0, _ => pure ()
  | left + 1, guard =>
    if (peer guard).eof || (peer guard).closed then pure ()
    else do
      let _ ← readTimeout .stdout (drainTimeout deadlineMs) (peer guard).stdoutRead
      let _ ← readTimeout .stderr (drainTimeout deadlineMs) (peer guard).stderrRead
      drainLoop deadlineMs peer left (guard + 1)

def maxDrainRounds : ℕ := 1000000

/-- What `ssh_channel_get_exit_state` reports when it has an answer. -/
structure NativeExit where
  exitCode : BitVec 32
  exitSignal : Option Bytes := none
  deriving DecidableEq, Repr

/-- `Channel::exit_state`; `native` says whether there is a native channel. -/
def exitState (native : Bool) (reported : Option NativeExit) : ExitState :=
  if native = false then {}
  else
    match reported with
    | none => {}
    | some exit =>
      match exit.exitSignal with
      | some signal => { signal := some signal }
      | none => { status := some exit.exitCode.toInt }

/-- `Channel::try_wait_exit`. -/
def tryWaitExit (native : Bool) (timeout : ℤ) (peer : ℕ → DrainRound)
    (reported : Option NativeExit) : StateM (List ReadCall) (Result ExitState) :=
  if native = false then
    pure (.error { code := .ssh .invalidHandle, operation := "Channel::try_wait_exit" })
  else do
    drainLoop timeout peer maxDrainRounds 0
    pure (.ok (exitState native reported))

/-- The timeouts of these calls together. -/
def waited : List ReadCall → ℤ
  | [] => 0
  | call :: calls => call.timeoutMs + waited calls

/-- The peer sends neither data nor the end of file; it may close the channel. -/
def Silent (peer : ℕ → DrainRound) : Prop :=
  ∀ guard, (peer guard).eof = false ∧ (peer guard).stdoutRead ≤ 0 ∧ (peer guard).stderrRead ≤ 0

/-! ### The rounds of the drain -/

/-- How many rounds of the loop are run. -/
def drainRounds (peer : ℕ → DrainRound) : ℕ → ℕ → ℕ
  | 0, _ => 0
  | left + 1, guard =>
    if (peer guard).eof || (peer guard).closed then 0 else drainRounds peer left (guard + 1) + 1

theorem waited_append (calls more : List ReadCall) :
    waited (calls ++ more) = waited calls + waited more := by
  induction calls with
  | nil => exact (Int.zero_add _).symm
  | cons call calls ih =>
    rw [List.cons_append, waited, waited, ih, Int.add_assoc]

/-- Each round waits twice for the same time. -/
theorem drainLoop_waited (deadlineMs : ℤ) (peer : ℕ → DrainRound) (left guard : ℕ)
    (calls : List ReadCall) :
    waited (drainLoop deadlineMs peer left guard calls).2 =
      waited calls + 2 * drainTimeout deadlineMs * drainRounds peer left guard := by
  induction left generalizing guard calls with
  | zero =>
    change waited calls = waited calls + 2 * drainTimeout deadlineMs * (0 : ℕ)
    simp
  | succ left ih =>
    unfold drainLoop drainRounds
    split_ifs with hend
    · change waited calls = waited calls + 2 * drainTimeout deadlineMs * (0 : ℕ)
      simp
    · change waited (drainLoop deadlineMs peer left (guard + 1)
        ((calls ++ [⟨.stdout, drainTimeout deadlineMs⟩]) ++
          [⟨.stderr, drainTimeout deadlineMs⟩])).2 = _
      rw [ih, waited_append, waited_append]
      have hone (stream : Stream) :
          waited [⟨stream, drainTimeout deadlineMs⟩] = drainTimeout deadlineMs :=
        Int.add_zero _
      rw [hone, hone, Int.natCast_succ, Int.mul_add, Int.mul_one]
      omega

/-- The loop is over after so many rounds at most when the guard or the peer ends it by then. -/
theorem drainRounds_le_iff (peer : ℕ → DrainRound) (left guard count : ℕ) :
    drainRounds peer left guard ≤ count ↔ left ≤ count ∨
      ∃ round ≤ count, ((peer (guard + round)).eof || (peer (guard + round)).closed) = true := by
  induction left generalizing guard count with
  | zero => simp [drainRounds]
  | succ left ih =>
    unfold drainRounds
    split_ifs with hend
    · exact iff_of_true (Nat.zero_le count) (.inr ⟨0, Nat.zero_le count, hend⟩)
    · cases count with
      | zero =>
        refine iff_of_false (by omega) ?_
        rintro (hleft | ⟨round, hround, hlater⟩)
        · omega
        · obtain rfl : round = 0 := by omega
          exact hend hlater
      | succ count =>
        rw [Nat.succ_le_succ_iff, ih, Nat.succ_le_succ_iff]
        refine or_congr Iff.rfl ⟨?_, ?_⟩
        · rintro ⟨round, hround, hlater⟩
          exact ⟨round + 1, by omega, by rw [← Nat.add_assoc, Nat.add_right_comm]; exact hlater⟩
        · rintro ⟨round, hround, hlater⟩
          cases round with
          | zero => exact absurd hlater hend
          | succ round =>
            refine ⟨round, by omega, ?_⟩
            rw [← Nat.add_assoc, Nat.add_right_comm] at hlater
            exact hlater

/-- What all waits of the drain come to. -/
theorem tryWaitExit_waited (timeout : ℤ) (peer : ℕ → DrainRound) (reported : Option NativeExit) :
    waited (tryWaitExit true timeout peer reported []).2 =
      2 * drainTimeout timeout * drainRounds peer maxDrainRounds 0 := by
  change waited (drainLoop timeout peer maxDrainRounds 0 []).2 = _
  rw [drainLoop_waited]
  exact Int.zero_add _

/-! ### The bound the caller asked for -/

/-- Waiting twice in each of `rounds` rounds keeps to the timeout only when there is nothing to
wait for or the timeout has two seconds for each round. -/
theorem drain_le_iff {timeout : ℤ} (hzero : 0 ≤ timeout) (rounds : ℕ) :
    2 * drainTimeout timeout * rounds ≤ timeout ↔ timeout = 0 ∨ 2000 * (rounds : ℤ) ≤ timeout := by
  rw [drainTimeout, if_neg (Int.not_lt.mpr hzero)]
  rcases Int.le_total timeout 1000 with hshort | hlong
  · rw [Int.min_eq_left hshort]
    cases rounds with
    | zero => exact iff_of_true (by simpa using hzero) (.inr (by simpa using hzero))
    | succ rounds =>
      have hrest : 0 ≤ 2 * timeout * (rounds : ℤ) :=
        Int.mul_nonneg (by omega) (Int.natCast_nonneg rounds)
      rw [Int.natCast_succ, Int.mul_add, Int.mul_one]
      refine ⟨fun h ↦ .inl (by omega), ?_⟩
      rintro (rfl | h)
      · simp
      · omega
  · rw [Int.min_eq_right hlong]
    exact ⟨fun h ↦ .inr (by omega), by rintro (h | h) <;> omega⟩

/-- With a silent peer the waits of `try_wait_exit` keep to the timeout exactly when it is
zero, when it is so long that the guard ends the loop in time, or when the peer closes the
channel before a round for which the timeout has two seconds for each round before it. -/
theorem tryWaitExit_waited_le_iff (native : Bool) {timeout : ℤ} (hzero : 0 ≤ timeout)
    {peer : ℕ → DrainRound} (hsilent : Silent peer) (reported : Option NativeExit) :
    waited (tryWaitExit native timeout peer reported []).2 ≤ timeout ↔
      native = false ∨ timeout = 0 ∨ 2000 * (1000000 : ℤ) ≤ timeout ∨
        ∃ guard : ℕ, (peer guard).closed = true ∧ 2000 * (guard : ℤ) ≤ timeout := by
  cases native with
  | false => exact iff_of_true hzero (.inl rfl)
  | true =>
    rw [tryWaitExit_waited, drain_le_iff hzero]
    have hrounds : 2000 * (drainRounds peer maxDrainRounds 0 : ℤ) ≤ timeout ↔
        drainRounds peer maxDrainRounds 0 ≤ (timeout / 2000).toNat := by omega
    rw [hrounds, drainRounds_le_iff]
    simp only [Bool.true_eq_false, false_or, maxDrainRounds, Nat.zero_add]
    refine or_congr Iff.rfl (or_congr (by omega) (exists_congr fun guard ↦ ?_))
    rw [(hsilent guard).1, Bool.false_or, and_comm]
    exact and_congr Iff.rfl (by omega)

/-- A peer that closes the channel once one round has gone by. -/
def closesAfterOne (guard : ℕ) : DrainRound := { closed := 0 < guard }

theorem tryWaitExit_waited_closesAfterOne :
    waited (tryWaitExit true 2000 closesAfterOne none []).2 ≤ 2000 :=
  (tryWaitExit_waited_le_iff true (by decide)
    (fun _ ↦ ⟨rfl, Int.le_refl 0, Int.le_refl 0⟩) none).mpr
      (.inr (.inr (.inr ⟨1, rfl, by decide⟩)))

/-- With the two seconds that `Shell::try_interact` gives it, and a peer that never says
anything again, the call waits longer than asked. -/
theorem tryWaitExit_waited_silent :
    Silent (fun _ ↦ {}) ∧ ¬ waited (tryWaitExit true 2000 (fun _ ↦ {}) none []).2 ≤ 2000 := by
  refine ⟨fun _ ↦ ⟨rfl, Int.le_refl 0, Int.le_refl 0⟩, ?_⟩
  rw [tryWaitExit_waited, drain_le_iff (by decide)]
  rintro (h | h)
  · exact absurd h (by decide)
  · have hone : drainRounds (fun _ ↦ {}) maxDrainRounds 0 ≤ 1 := by omega
    rw [drainRounds_le_iff] at hone
    simp [maxDrainRounds] at hone

end LibSshpp.Exec
