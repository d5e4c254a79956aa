import LibSshpp.Forwarding.HalfClose
import LibSshpp.Program.Schedule

/-!
The pump on a session that has died. Nothing but the answer of `is_eof` ends the channel's
direction, and a dead session does not give it: a pump that has not heard of the end of the
channel by then does not leave its loop any more, and whoever called it serves nobody else.
-/

set_option autoImplicit false
set_option relaxedAutoImplicit false

namespace LibSshpp.Forwarding

open Program

/-- The session is dead in this round: every call on the channel returns an error, and `is_eof`
stays false. -/
structure SessionDead (round : Round) : Prop where
  available : ∃ info, round.available = .error info
  channelData : ∃ info, round.channelData = .error info
  channelWrites : ∃ info later, round.channelWrites = .error info :: later
  channelAtEof : round.channelAtEof = false

/-- From the given iteration on the socket is at the end of its stream: `recv` has nothing to
deliver, and `poll` reports as much again and again, though a signal may interrupt it. -/
structure ClientEnds (rounds : ℕ → Round) (start : ℕ) : Prop where
  clientData : ∀ time, start ≤ time → (rounds time).clientData = []
  pollIn : ∀ time, start ≤ time → ∃ later, time ≤ later ∧ (rounds later).pollIn = true

/-- The pump after the first iterations of a schedule. -/
def pumpAt (bufferSize : ℕ) (stats : ForwardStats) (rounds : ℕ → Round) (time : ℕ) : PumpState :=
  pump bufferSize stats (firstInputs rounds time)

/-- The pump leaves its loop after finitely many iterations. -/
def Leaves (bufferSize : ℕ) (stats : ForwardStats) (rounds : ℕ → Round) : Prop :=
  ∃ time, (pumpAt bufferSize stats rounds time).done = true

section Schedule

variable {bufferSize : ℕ} {stats : ForwardStats} {rounds : ℕ → Round}

theorem pumpAt_succ (time : ℕ) : pumpAt bufferSize stats rounds (time + 1) =
    (pumpRound bufferSize (rounds time) (pumpAt bufferSize stats rounds time)).2 :=
  stateAt_succ (pumpRound bufferSize) rounds (pumpStart bufferSize stats) time

/-- A pump that is asked to stop leaves, if it has not yet. -/
theorem leaves_of_stop {time : ℕ} (hstop : (rounds time).stopRequested = true) :
    Leaves bufferSize stats rounds := by
  refine ⟨time + 1, ?_⟩
  rw [pumpAt_succ, pumpRound]
  split_ifs with hdone hleaves
  · exact hdone
  · rfl
  · exact absurd (by rw [hstop, Bool.true_or]) hleaves

/-- A pump that does not leave goes on in every iteration. -/
theorem runs_of_stays (hstays : ¬ Leaves bufferSize stats rounds) (time : ℕ) :
    Runs (pumpAt bufferSize stats rounds time) (rounds time) := by
  have hrunning : (pumpAt bufferSize stats rounds time).done = false := by
    by_contra hdone
    exact hstays ⟨time, by simpa using hdone⟩
  refine ⟨hrunning, ?_, fun hends ↦ hstays ⟨time + 1, ?_⟩⟩
  · by_contra hstop
    exact hstays (leaves_of_stop (by simpa using hstop))
  · rw [pumpAt_succ, pumpRound, if_neg (by simp [hrunning]), if_pos (by simp [hends])]

theorem flags_of_runs {round : Round} {state : PumpState} (hruns : Runs state round) :
    (pumpRound bufferSize round state).2.channelEof = (state.channelEof || round.channelAtEof) ∧
      ((pumpRound bufferSize round state).2.clientEof = true ↔ state.clientEof = true ∨
        round.pollIn = true ∧ round.clientData.take bufferSize = []) := by
  obtain ⟨hchannel, -, hclient⟩ := clientTurn_flags bufferSize round
    (channelTurn bufferSize round state)
  rw [(pumpRound_of_runs hruns).1, hchannel, hclient, (channelTurn_flags bufferSize round state).1,
    (channelTurn_moves bufferSize round state).2.2]
  exact ⟨rfl, Iff.rfl⟩

theorem channelEof_pumpRound {round : Round} {state : PumpState}
    (h : (pumpRound bufferSize round state).2.channelEof = true) :
    state.channelEof = true ∨ round.channelAtEof = true := by
  by_cases hruns : Runs state round
  · rw [(pumpRound_of_runs hruns).1, (clientTurn_flags _ _ _).1, (channelTurn_flags _ _ _).1] at h
    simpa using h
  · unfold pumpRound at h
    split_ifs at h with hdone hleaves
    · exact .inl h
    · exact .inl h
    · exact absurd ⟨by simpa using hdone, by simpa [not_or] using hleaves⟩ hruns

/-- The channel's flag comes from an answer of `is_eof`, and from nothing else. -/
theorem exists_of_channelEof {time : ℕ}
    (h : (pumpAt bufferSize stats rounds time).channelEof = true) :
    ∃ earlier < time, (rounds earlier).channelAtEof = true := by
  obtain ⟨earlier, hlt, hbefore, hafter⟩ := exists_step_of_stateAt
    (fun state : PumpState ↦ state.channelEof = true)
    (show ¬ (pumpStart bufferSize stats).channelEof = true from nofun) h
  exact ⟨earlier, hlt, (channelEof_pumpRound hafter).resolve_left hbefore⟩

/-- Why a pump leaves. -/
theorem stop_or_atEof_of_leaves (h : Leaves bufferSize stats rounds) :
    (∃ time, (rounds time).stopRequested = true) ∨ ∃ time, (rounds time).channelAtEof = true := by
  obtain ⟨time, hdone⟩ := h
  rcases pump_done hdone with ⟨round, hround, hstop⟩ | ⟨hchannel, -⟩
  · obtain ⟨earlier, -, rfl⟩ := mem_firstInputs.mp hround
    exact .inl ⟨earlier, hstop⟩
  · obtain ⟨earlier, -, hatEof⟩ := exists_of_channelEof hchannel
    exact .inr ⟨earlier, hatEof⟩

/-- An end of the channel that the pump has heard of, and a client that has ended, end the pump. -/
theorem leaves_of_ended {start time : ℕ} (hends : ClientEnds rounds start)
    (hatEof : (rounds time).channelAtEof = true) : Leaves bufferSize stats rounds := by
  by_contra hstays
  have hruns : ∀ time, Runs (pumpAt bufferSize stats rounds time) (rounds time) :=
    runs_of_stays hstays
  have hchannel : ∀ later, time + 1 ≤ later →
      (pumpAt bufferSize stats rounds later).channelEof = true := by
    intro later hle
    induction later, hle using Nat.le_induction with
    | base => rw [pumpAt_succ, (flags_of_runs (hruns time)).1, hatEof, Bool.or_true]
    | succ later _ ih => rw [pumpAt_succ, (flags_of_runs (hruns later)).1, ih, Bool.true_or]
  obtain ⟨later, hle, hpoll⟩ := hends.pollIn (max start (time + 1)) (le_max_left _ _)
  have hdata : (rounds later).clientData = [] :=
    hends.clientData later ((le_max_left _ _).trans hle)
  have hclient : (pumpAt bufferSize stats rounds (later + 1)).clientEof = true := by
    rw [pumpAt_succ, (flags_of_runs (hruns later)).2, hdata]
    exact .inr ⟨hpoll, List.take_nil⟩
  have hlater : time + 1 ≤ later + 1 :=
    ((le_max_right _ _).trans hle).trans (Nat.le_add_right later 1)
  exact (hruns (later + 1)).2.2 ⟨hclient, hchannel _ hlater⟩

/-- Once the session is dead and the client has ended, the pump leaves its loop if it is asked to
stop, or if the channel had said that it was at its end before the session died, and otherwise it
never does. -/
theorem leaves_iff {start : ℕ} (hdead : ∀ time, start ≤ time → SessionDead (rounds time))
    (hends : ClientEnds rounds start) :
    Leaves bufferSize stats rounds ↔ (∃ time, (rounds time).stopRequested = true) ∨
      ∃ time < start, (rounds time).channelAtEof = true := by
  constructor
  · intro hleaves
    refine (stop_or_atEof_of_leaves hleaves).imp_right fun ⟨time, hatEof⟩ ↦ ⟨time, ?_, hatEof⟩
    by_contra hlate
    have hopen := (hdead time (Nat.le_of_not_lt hlate)).channelAtEof
    exact Bool.false_ne_true (hopen.symm.trans hatEof)
  · rintro (⟨time, hstop⟩ | ⟨time, -, hatEof⟩)
    · exact leaves_of_stop hstop
    · exact leaves_of_ended hends hatEof

end Schedule

/-- A round on a dead session, whose client has gone. -/
def deadRound : Round where
  available := .error { code := .ssh .fatal }
  channelData := .error { code := .ssh .fatal }
  channelWrites := [.error { code := .ssh .fatal }]
  pollIn := true

theorem sessionDead_deadRound : SessionDead deadRound :=
  ⟨⟨_, rfl⟩, ⟨_, rfl⟩, ⟨_, _, rfl⟩, rfl⟩

/-- The client half-closes on a session that is dead by then: the pump is never left. -/
theorem stays_of_deadRound : (∀ time, 0 ≤ time → SessionDead ((fun _ ↦ deadRound) time)) ∧
    ClientEnds (fun _ ↦ deadRound) 0 ∧ ¬ Leaves 65536 {} (fun _ ↦ deadRound) := by
  refine ⟨fun _ _ ↦ sessionDead_deadRound, ⟨fun _ _ ↦ rfl, fun time _ ↦ ⟨time, le_rfl, rfl⟩⟩, ?_⟩
  intro hleaves
  rcases stop_or_atEof_of_leaves hleaves with ⟨-, hstop⟩ | ⟨-, hatEof⟩
  · exact nomatch hstop
  · exact nomatch hatEof

/-- The session dies one round after the channel's end was seen. -/
def diesBehindEnd : ℕ → Round
  | 0 => { channelAtEof := true }
  | _ + 1 => deadRound

theorem leaves_diesBehindEnd : Leaves 65536 {} diesBehindEnd := by
  refine (leaves_iff (fun time hle ↦ ?_) ⟨fun time hle ↦ ?_, fun time hle ↦ ?_⟩).mpr
    (.inr ⟨0, Nat.zero_lt_one, rfl⟩)
  · cases time with
    | zero => exact absurd hle (Nat.not_succ_le_zero 0)
    | succ time => exact sessionDead_deadRound
  · cases time with
    | zero => exact absurd hle (Nat.not_succ_le_zero 0)
    | succ time => rfl
  · exact ⟨time + 1, Nat.le_add_right time 1, rfl⟩

end LibSshpp.Forwarding
