import LibSshpp.Exec.Output
import LibSshpp.Program.Schedule

/-!
`Exec::try_run` on a connection that is lost while the command runs. The loop takes a
poll that fails for a stream that has nothing, so the reads that would report the loss
are never made, and only the end of the channel or a timeout ends the loop.
-/

set_option autoImplicit false
set_option relaxedAutoImplicit false

namespace LibSshpp.Exec

open Program

/-- In this round every call on the channel fails, and its end is not reported. -/
structure ConnectionLost (round : Round) : Prop where
  stdoutPoll : round.stdout.pollError.isSome = true
  stderrPoll : round.stderr.pollError.isSome = true
  stdoutRead : ∃ last, round.stdout.read = .error last
  stderrRead : ∃ last, round.stderr.read = .error last
  noEof : round.eofReported = false

/-! ### One round after the other -/

theorem loop_cons (exec : Options) (round : Round) (rounds : List Round) (state : Running) :
    loop exec (round :: rounds) state =
      match loop exec [round] state with
      | (none, after) => loop exec rounds after
      | ended => ended := by
  rw [loop, loop]
  obtain ⟨outOutcome, afterOut, hout⟩ :
      ∃ outcome after, drain exec .stdout round.stdout state = (outcome, after) := ⟨_, _, rfl⟩
  rw [bind_of_eq hout, bind_of_eq hout]
  cases outOutcome with
  | error info => rfl
  | ok availOut =>
    dsimp only
    obtain ⟨errOutcome, afterErr, herr⟩ :
        ∃ outcome after, drain exec .stderr round.stderr afterOut = (outcome, after) :=
      ⟨_, _, rfl⟩
    rw [bind_of_eq herr, bind_of_eq herr]
    cases errOutcome with
    | error info => rfl
    | ok availErr =>
      change (if _ then _ else _ : StateM Running (Option (Result Unit))) _ =
        match (if _ then _ else _ : StateM Running (Option (Result Unit))) _ with
        | (none, after) => loop exec rounds after
        | ended => ended
      split_ifs <;> rfl

/-- A loop that has not ended goes on with the rounds that follow. -/
theorem loop_append (exec : Options) (rounds more : List Round) (state : Running) :
    loop exec (rounds ++ more) state =
      match loop exec rounds state with
      | (none, after) => loop exec more after
      | ended => ended := by
  induction rounds generalizing state with
  | nil => rfl
  | cons round rounds ih =>
    rw [List.cons_append, loop_cons, loop_cons exec round rounds]
    obtain ⟨outcome, after, honce⟩ :
        ∃ outcome after, loop exec [round] state = (outcome, after) := ⟨_, _, rfl⟩
    rw [honce]
    cases outcome with
    | some outcome => rfl
    | none => exact ih after

/-! ### When the connection is lost -/

section Lost

variable {exec : Options}

/-- Without a timeout, a round on a lost connection does not end the loop. -/
theorem loop_round_of_lost (htimeout : exec.timeout = none) {round : Round}
    (hlost : ConnectionLost round) (state : Running) : (loop exec [round] state).1 = none := by
  obtain ⟨lastOut, hout⟩ := Option.isSome_iff_exists.mp hlost.stdoutPoll
  obtain ⟨lastErr, herr⟩ := Option.isSome_iff_exists.mp hlost.stderrPoll
  rw [loop, bind_of_eq (drain_of_pollError hout .stdout state)]
  dsimp only
  rw [bind_of_eq (drain_of_pollError herr .stderr _)]
  change ((if _ then _ else _ : StateM Running (Option (Result Unit))) _).1 = none
  have hopen : ∀ channel : Channel, channel.isEof round.eofReported = false := by
    intro channel
    rw [hlost.noEof]
    rfl
  rw [hopen, htimeout, if_neg (by simp), if_neg (by simp)]
  rfl

theorem loop_of_lost (htimeout : exec.timeout = none) {rounds : List Round}
    (hlost : ∀ round ∈ rounds, ConnectionLost round) (state : Running) :
    (loop exec rounds state).1 = none := by
  induction rounds generalizing state with
  | nil => rfl
  | cons round rounds ih =>
    obtain ⟨hround, hrest⟩ := List.forall_mem_cons.mp hlost
    have honce := loop_round_of_lost htimeout hround state
    rw [loop_cons]
    obtain ⟨outcome, after, hafter⟩ :
        ∃ outcome after, loop exec [round] state = (outcome, after) := ⟨_, _, rfl⟩
    rw [hafter] at honce ⊢
    obtain rfl : outcome = none := honce
    exact ih hrest after

end Lost

/-- `try_run` has not returned exactly while its loop runs. -/
theorem tryRun_eq_none_iff (exec : Options) (outcomes : Outcomes) (packets : List Packet)
    (rounds : List Round) :
    tryRun exec outcomes packets rounds = none ↔
      start exec outcomes = .ok () ∧
        (loop exec rounds { channel := { incoming := packets } }).1 = none := by
  unfold tryRun
  cases start exec outcomes with
  | error info => exact iff_of_false (nomatch ·) fun h ↦ nomatch h.1
  | ok _ =>
    rw [and_iff_right rfl]
    obtain ⟨outcome, after, hloop⟩ : ∃ outcome after,
        loop exec rounds { channel := { incoming := packets } } = (outcome, after) := ⟨_, _, rfl⟩
    rw [hloop]
    rcases outcome with - | (info | -)
    · exact iff_of_true rfl rfl
    · exact iff_of_false (nomatch ·) (nomatch ·)
    · refine iff_of_false ?_ (nomatch ·)
      dsimp only
      cases outcomes.waitExit <;> exact (nomatch ·)

/-- A loop that is running has been running before. -/
theorem loop_eq_none_of_append {exec : Options} {rounds more : List Round} {state : Running}
    (h : (loop exec (rounds ++ more) state).1 = none) : (loop exec rounds state).1 = none := by
  rw [loop_append] at h
  obtain ⟨outcome, after, hloop⟩ :
      ∃ outcome after, loop exec rounds state = (outcome, after) := ⟨_, _, rfl⟩
  rw [hloop] at h ⊢
  cases outcome with
  | none => rfl
  | some outcome => exact h

/-- A run without a timeout whose connection is lost while it lasts never returns. -/
theorem tryRun_eq_none_of_lost {exec : Options} (htimeout : exec.timeout = none)
    {outcomes : Outcomes} {packets : List Packet} {rounds : ℕ → Round} {lostFrom : ℕ}
    (hrunning : tryRun exec outcomes packets (firstInputs rounds lostFrom) = none)
    (hlost : ∀ time, lostFrom ≤ time → ConnectionLost (rounds time)) (time : ℕ) :
    tryRun exec outcomes packets (firstInputs rounds time) = none := by
  rw [tryRun_eq_none_iff] at hrunning ⊢
  refine ⟨hrunning.1, ?_⟩
  rcases Nat.le_total time lostFrom with hearly | hlate
  · obtain ⟨more, rfl⟩ := Nat.exists_eq_add_of_le hearly
    rw [firstInputs_add] at hrunning
    exact loop_eq_none_of_append hrunning.2
  · obtain ⟨more, rfl⟩ := Nat.exists_eq_add_of_le hlate
    rw [firstInputs_add, loop_append]
    obtain ⟨outcome, after, hloop⟩ : ∃ outcome after,
        loop exec (firstInputs rounds lostFrom) { channel := { incoming := packets } } =
          (outcome, after) := ⟨_, _, rfl⟩
    rw [hloop] at hrunning ⊢
    obtain rfl : outcome = none := hrunning.2
    refine loop_of_lost htimeout (fun round hround ↦ ?_) after
    obtain ⟨elapsed, -, rfl⟩ := mem_firstInputs.mp hround
    exact hlost _ (Nat.le_add_right _ _)

/-- Where the connection is lost before the loop has ended, and no timeout is set,
`try_run` does not return the error of the loss: it returns nothing, however long the
loop goes on. -/
theorem tryRun_lost_not_error (exec : Options) (outcomes : Outcomes) (packets : List Packet)
    (rounds : ℕ → Round) (lostFrom : ℕ) (htimeout : exec.timeout = none)
    (hrunning : tryRun exec outcomes packets (firstInputs rounds lostFrom) = none)
    (hlost : ∀ time, lostFrom ≤ time → ConnectionLost (rounds time)) :
    ¬ ∃ time info, tryRun exec outcomes packets (firstInputs rounds time) =
      some (.error info) := by
  rintro ⟨time, info, hreturned⟩
  rw [tryRun_eq_none_of_lost htimeout hrunning hlost time] at hreturned
  exact nomatch hreturned

/-- A round in which libssh finds the socket gone. -/
def goneRound : Round :=
  let gone : SshError := { code := sshFatal, text := "Socket error: disconnected" }
  { stdout := { pollError := some gone, read := .error gone }
    stderr := { pollError := some gone, read := .error gone }
    eofReported := false }

theorem goneRound_lost : ConnectionLost goneRound := ⟨rfl, rfl, ⟨_, rfl⟩, ⟨_, rfl⟩, rfl⟩

/-- Some output arrives, then the socket is gone. -/
def cutRounds : ℕ → Round
  | 0 => { stdout := { beforePoll := 1 }, eofReported := false }
  | _ + 1 => goneRound

theorem cutRounds_lost : ∀ time, 1 ≤ time → ConnectionLost (cutRounds time)
  | _ + 1, _ => goneRound_lost

theorem tryRun_lost_not_error_cut :
    ¬ ∃ time info, tryRun {} {} [.data .stdout (ascii "partial")] (firstInputs cutRounds time) =
      some (.error info) :=
  tryRun_lost_not_error {} {} _ cutRounds 1 rfl (by decide +kernel) cutRounds_lost

/-- Not every run without a timeout reports the loss of its connection. -/
theorem lost_connection_unreported :
    ¬ ∀ (exec : Options) (outcomes : Outcomes) (packets : List Packet) (rounds : ℕ → Round)
      (lostFrom : ℕ), exec.timeout = none →
      tryRun exec outcomes packets (firstInputs rounds lostFrom) = none →
      (∀ time, lostFrom ≤ time → ConnectionLost (rounds time)) →
      ∃ time info, tryRun exec outcomes packets (firstInputs rounds time) =
        some (.error info) := by
  intro hreports
  have hrunning : tryRun {} {} [.data .stdout (ascii "partial")] (firstInputs cutRounds 1) = none :=
    by decide +kernel
  obtain ⟨time, info, hreturned⟩ := hreports {} {} _ cutRounds 1 rfl hrunning cutRounds_lost
  rw [tryRun_eq_none_of_lost rfl hrunning cutRounds_lost time] at hreturned
  exact nomatch hreturned

end LibSshpp.Exec
