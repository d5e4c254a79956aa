import LibSshpp.Client.Authenticators
import Mathlib.Data.List.Infix

/-!
Whether `SSH_AUTH_AGAIN` shows. On a blocking session an attempt should come to the same as on the
trace without those answers. The loop of `auth_attempt` sees to that where a call is the whole of
an attempt; but a keyboard-interactive login that goes into the loop does not come back to the
dialogue, and a challenge that is received in the loop is taken for an error.
-/

set_option autoImplicit false
set_option relaxedAutoImplicit false

namespace LibSshpp.Client

/-- The trace with every `SSH_AUTH_AGAIN` taken out. -/
def withoutAgain (trace : List Answer) : List Answer :=
  trace.filter fun answer ↦ answer.rc ≠ sshAuthAgain

/-- Every `SSH_AUTH_AGAIN` comes before the deadline. -/
def InTime (trace : List Answer) : Prop :=
  ∀ answer ∈ trace, answer.rc = sshAuthAgain → answer.late = false

instance (trace : List Answer) : Decidable (InTime trace) :=
  inferInstanceAs (Decidable (∀ answer ∈ trace, _ → _))

/-- A challenge was received in the loop of `auth_attempt`. -/
def ChallengedInLoop (talk : Talk) : Prop :=
  { call := .userauthKbdint, rc := sshAuthInfo, inLoop := true } ∈ talk.calls

instance (talk : Talk) : Decidable (ChallengedInLoop talk) :=
  inferInstanceAs (Decidable (_ ∈ _))

/-- The attempt comes to what it comes to without any `SSH_AUTH_AGAIN`, with the same dialogue, and
that answer is not handed on. -/
structure Unaffected (authenticator : Authenticator) (history : List DialogueEvent)
    (trace : List Answer) : Prop where
  outcome : (attempt true authenticator trace { dialogue := history }).outcome =
    (attempt true authenticator (withoutAgain trace) { dialogue := history }).outcome
  dialogue : (attempt true authenticator trace { dialogue := history }).talk.dialogue =
    (attempt true authenticator (withoutAgain trace) { dialogue := history }).talk.dialogue
  settled : (attempt true authenticator trace { dialogue := history }).outcome ≠
    some (.ok .again)

/-! ### Attempts with and without the answer -/

/-- Two attempts that have come to the same, the second on a trace without `SSH_AUTH_AGAIN`. -/
structure Agree (attempted plain : Attempted) : Prop where
  outcome : attempted.outcome = plain.outcome
  dialogue : attempted.talk.dialogue = plain.talk.dialogue
  rest : withoutAgain attempted.rest = plain.rest
  inTime : InTime attempted.rest

/-- The first attempt has given up on a challenge; the second has gone on to it. -/
structure Diverged (attempted plain : Attempted) : Prop where
  gaveUp : ∃ error, attempted.outcome = some (.error error) ∧ error.function = "map_auth_result"
  wentOn : attempted.talk.dialogue.length < plain.talk.dialogue.length ∨
    ∃ error, plain.outcome = some (.error error) ∧ error.function = "attempt"

/-- What is to be shown of each way of attempting. -/
structure Retries (attempting : Attempting) : Prop where
  grows : ∀ trace talk, talk.dialogue <+: (attempting trace talk).talk.dialogue
  settled : ∀ trace talk, (attempting trace talk).outcome ≠ some (.ok .again)
  compares : ∀ trace talk plainTalk, InTime trace → ¬ ChallengedInLoop talk →
    talk.dialogue = plainTalk.dialogue →
      ¬ ChallengedInLoop (attempting trace talk).talk ∧
          Agree (attempting trace talk) (attempting (withoutAgain trace) plainTalk) ∨
        ChallengedInLoop (attempting trace talk).talk ∧
          Diverged (attempting trace talk) (attempting (withoutAgain trace) plainTalk)

section Trace

variable {answer : Answer} {trace : List Answer}

theorem withoutAgain_cons_again (h : answer.rc = sshAuthAgain) :
    withoutAgain (answer :: trace) = withoutAgain trace := by
  rw [withoutAgain, List.filter_cons_of_neg (by simpa using h)]
  rfl

theorem withoutAgain_cons (h : answer.rc ≠ sshAuthAgain) :
    withoutAgain (answer :: trace) = answer :: withoutAgain trace := by
  rw [withoutAgain, List.filter_cons_of_pos (by simpa using h)]
  rfl

theorem InTime.tail (h : InTime (answer :: trace)) : InTime trace :=
  fun other hother ↦ h other (List.mem_cons_of_mem _ hother)

end Trace

theorem challengedInLoop_asked {talk : Talk} {call : AuthCall} {rc : ℤ} {inLoop : Bool} :
    ChallengedInLoop (talk.asked call rc inLoop) ↔ ChallengedInLoop talk ∨
      call = .userauthKbdint ∧ rc = sshAuthInfo ∧ inLoop = true := by
  unfold ChallengedInLoop Talk.asked
  simp [eq_comm]

theorem mapAuthResult_ne_again {answer : Answer} (operation : String)
    (h : answer.rc ≠ sshAuthAgain) : mapAuthResult answer operation ≠ .ok .again := by
  unfold mapAuthResult
  split_ifs <;> simp

theorem authAttempt_again {answer : Answer} (operation : String) (call : AuthCall)
    (trace : List Answer) (talk : Talk) (hagain : answer.rc = sshAuthAgain)
    (hlate : answer.late = false) : authAttempt true operation call (answer :: trace) talk =
      authAttempt true operation call trace (talk.asked call answer.rc true) := by
  rw [authAttempt, if_neg (by simp [hagain]), if_neg (by simp [hlate])]

theorem authAttempt_answer {answer : Answer} (operation : String) (call : AuthCall)
    (trace : List Answer) (talk : Talk) (hanswer : answer.rc ≠ sshAuthAgain) :
    authAttempt true operation call (answer :: trace) talk =
      { outcome := some (mapAuthResult answer operation), rest := trace
        talk := talk.asked call answer.rc true } := by
  rw [authAttempt, if_pos (.inl hanswer)]

/-- What the loop of `auth_attempt` has come to when it is left, or when the trace ends: nothing
yet, or the first answer that is not `SSH_AUTH_AGAIN`. -/
inductive LoopEnds (operation : String) (call : AuthCall) (trace : List Answer) (talk : Talk)
    (attempted : Attempted) : Prop
  | waits (htrace : withoutAgain trace = []) (houtcome : attempted.outcome = none)
    (hrest : attempted.rest = [])
    (hloop : ChallengedInLoop attempted.talk ↔ ChallengedInLoop talk)
  | settles (answer : Answer) (rest : List Answer)
    (htrace : withoutAgain trace = answer :: withoutAgain rest) (hinTime : InTime rest)
    (hanswer : answer.rc ≠ sshAuthAgain)
    (houtcome : attempted.outcome = some (mapAuthResult answer operation))
    (hrest : attempted.rest = rest)
    (hloop : ChallengedInLoop attempted.talk ↔
      ChallengedInLoop talk ∨ call = .userauthKbdint ∧ answer.rc = sshAuthInfo)

theorem authAttempt_ends (operation : String) (call : AuthCall) {trace : List Answer}
    (hinTime : InTime trace) (talk : Talk) :
    LoopEnds operation call trace talk (authAttempt true operation call trace talk) := by
  induction trace generalizing talk with
  | nil => exact .waits rfl rfl rfl Iff.rfl
  | cons answer trace ih =>
    by_cases hagain : answer.rc = sshAuthAgain
    · have hlate := hinTime answer List.mem_cons_self hagain
      have hasked : ChallengedInLoop (talk.asked call answer.rc true) ↔ ChallengedInLoop talk := by
        rw [challengedInLoop_asked, hagain]
        exact or_iff_left fun h ↦ absurd h.2.1 (by decide)
      rw [authAttempt_again operation call trace talk hagain hlate]
      cases ih hinTime.tail (talk.asked call answer.rc true) with
      | waits htrace houtcome hrest hloop =>
        exact .waits ((withoutAgain_cons_again hagain).trans htrace) houtcome hrest
          (hloop.trans hasked)
      | settles other rest htrace hrestInTime hanswer houtcome hrest hloop =>
        exact .settles other rest ((withoutAgain_cons_again hagain).trans htrace) hrestInTime
          hanswer houtcome hrest (hloop.trans (or_congr_left hasked))
    · rw [authAttempt_answer operation call trace talk hagain]
      refine .settles answer trace (withoutAgain_cons hagain) hinTime.tail hagain rfl rfl ?_
      rw [challengedInLoop_asked, and_iff_left rfl]

/-- The loop is no part of the dialogue. -/
theorem authAttempt_dialogue (blocking : Bool) (operation : String) (call : AuthCall)
    (trace : List Answer) (talk : Talk) :
    (authAttempt blocking operation call trace talk).talk.dialogue = talk.dialogue := by
  induction trace generalizing talk with
  | nil => rfl
  | cons answer trace ih =>
    rw [authAttempt]
    split_ifs
    · rfl
    · rfl
    · exact ih (talk.asked call answer.rc true)

theorem authAttempt_settled (operation : String) (call : AuthCall) (trace : List Answer)
    (talk : Talk) : (authAttempt true operation call trace talk).outcome ≠ some (.ok .again) := by
  induction trace generalizing talk with
  | nil => nofun
  | cons answer trace ih =>
    by_cases hagain : answer.rc = sshAuthAgain
    · rw [authAttempt, if_neg (by simp [hagain])]
      split_ifs
      · nofun
      · exact ih (talk.asked call answer.rc true)
    · rw [authAttempt_answer operation call trace talk hagain]
      exact fun h ↦ mapAuthResult_ne_again operation hagain (Option.some.inj h)

theorem retries_authAttempt (operation : String) {call : AuthCall}
    (hcall : call ≠ .userauthKbdint) : Retries (authAttempt true operation call) where
  grows trace talk := by
    rw [authAttempt_dialogue]
  settled := authAttempt_settled operation call
  compares trace talk plainTalk hinTime hloop hdialogue := by
    left
    have hsame : (authAttempt true operation call trace talk).talk.dialogue =
        (authAttempt true operation call (withoutAgain trace) plainTalk).talk.dialogue := by
      rw [authAttempt_dialogue, authAttempt_dialogue, hdialogue]
    cases authAttempt_ends operation call hinTime talk with
    | waits htrace houtcome hrest hends =>
      rw [htrace] at hsame ⊢
      refine ⟨mt hends.mp hloop, houtcome, hsame, ?_, ?_⟩
      · rw [hrest]
        rfl
      · rw [hrest]
        exact fun _ h ↦ absurd h List.not_mem_nil
    | settles answer rest htrace hrestInTime hanswer houtcome hrest hends =>
      rw [htrace, authAttempt_answer operation call _ plainTalk hanswer] at hsame ⊢
      refine ⟨fun h ↦ ?_, houtcome, hsame, congrArg withoutAgain hrest, hrest ▸ hrestInTime⟩
      exact (hends.mp h).elim hloop fun h ↦ hcall h.1

/-! ### The keyboard-interactive dialogue -/

section Dialogue

variable (handler : Option Handler)

theorem dialogue_asked (talk : Talk) (call : AuthCall) (rc : ℤ) (inLoop : Bool) :
    (talk.asked call rc inLoop).dialogue = talk.dialogue := rfl

/-- What a challenge that reaches the dialogue leads to. -/
theorem keyboardInteractive_info {answer : Answer} (trace : List Answer) (talk : Talk)
    (hinfo : answer.rc = sshAuthInfo) :
    attemptKeyboardInteractive true handler (answer :: trace) talk =
      match handler with
      | none =>
        { outcome := some (.error {
            info := makeErrorInfo answer.last "ssh_userauth_kbdint" .authDenied
            function := "attempt" })
          rest := trace, talk := talk.asked .userauthKbdint answer.rc false }
      | some handle =>
        match handle talk.dialogue answer.challenge.read with
        | .error error =>
          { outcome := some (.error error), rest := trace
            talk := (talk.asked .userauthKbdint answer.rc false).shown answer.challenge.read }
        | .ok answers =>
          attemptKeyboardInteractive true handler trace
            (((talk.asked .userauthKbdint answer.rc false).shown
              answer.challenge.read).answered answers) := by
  rw [attemptKeyboardInteractive.eq_def]
  exact if_pos hinfo

theorem keyboardInteractive_again {answer : Answer} (trace : List Answer) (talk : Talk)
    (hagain : answer.rc = sshAuthAgain) :
    attemptKeyboardInteractive true handler (answer :: trace) talk =
      authAttempt true "ssh_userauth_kbdint" .userauthKbdint trace
        (talk.asked .userauthKbdint answer.rc false) := by
  have hinfo : answer.rc ≠ sshAuthInfo := by
    rw [hagain]
    decide
  rw [attemptKeyboardInteractive.eq_def]
  exact (if_neg hinfo).trans (if_pos hagain)

theorem keyboardInteractive_ends {answer : Answer} (trace : List Answer) (talk : Talk)
    (hinfo : answer.rc ≠ sshAuthInfo) (hagain : answer.rc ≠ sshAuthAgain) :
    attemptKeyboardInteractive true handler (answer :: trace) talk =
      { outcome := some (mapAuthResult answer "ssh_userauth_kbdint"), rest := trace
        talk := talk.asked .userauthKbdint answer.rc false } := by
  rw [attemptKeyboardInteractive.eq_def]
  exact (if_neg hinfo).trans (if_neg hagain)

theorem keyboardInteractive_grows (trace : List Answer) (talk : Talk) :
    talk.dialogue <+: (attemptKeyboardInteractive true handler trace talk).talk.dialogue := by
  induction trace generalizing talk with
  | nil => exact List.prefix_rfl
  | cons answer trace ih =>
    by_cases hinfo : answer.rc = sshAuthInfo
    · rw [keyboardInteractive_info handler trace talk hinfo]
      cases handler with
      | none => exact List.prefix_rfl
      | some handle =>
        dsimp only
        rcases handle talk.dialogue answer.challenge.read with error | answers
        · exact List.prefix_append _ _
        · refine List.IsPrefix.trans ?_ (ih _)
          exact (List.prefix_append _ _).trans (List.prefix_append _ _)
    · by_cases hagain : answer.rc = sshAuthAgain
      · rw [keyboardInteractive_again handler trace talk hagain, authAttempt_dialogue]
        exact List.prefix_rfl
      · rw [keyboardInteractive_ends handler trace talk hinfo hagain]
        exact List.prefix_rfl

/-- A challenge that reaches the dialogue of a handler is shown to it. -/
theorem keyboardInteractive_shows {handle : Handler} {answer : Answer} (trace : List Answer)
    (talk : Talk) (hinfo : answer.rc = sshAuthInfo) :
    talk.dialogue.length <
      (attemptKeyboardInteractive true (some handle) (answer :: trace)
        talk).talk.dialogue.length := by
  rw [keyboardInteractive_info _ trace talk hinfo]
  dsimp only
  let asked := talk.asked .userauthKbdint answer.rc false
  have hshown : talk.dialogue.length < (asked.shown answer.challenge.read).dialogue.length := by
    simp [asked, Talk.shown, dialogue_asked]
  rcases handle talk.dialogue answer.challenge.read with error | answers
  · exact hshown
  · have hanswered : (asked.shown answer.challenge.read).dialogue <+:
        ((asked.shown answer.challenge.read).answered answers).dialogue := List.prefix_append _ _
    exact hshown.trans_le
      (hanswered.trans (keyboardInteractive_grows (some handle) trace _)).length_le

theorem keyboardInteractive_settled (trace : List Answer) (talk : Talk) :
    (attemptKeyboardInteractive true handler trace talk).outcome ≠ some (.ok .again) := by
  induction trace generalizing talk with
  | nil => nofun
  | cons answer trace ih =>
    by_cases hinfo : answer.rc = sshAuthInfo
    · rw [keyboardInteractive_info handler trace talk hinfo]
      cases handler with
      | none => nofun
      | some handle =>
        dsimp only
        rcases handle talk.dialogue answer.challenge.read with error | answers
        · nofun
        · exact ih _
    · by_cases hagain : answer.rc = sshAuthAgain
      · rw [keyboardInteractive_again handler trace talk hagain]
        exact authAttempt_settled _ _ trace _
      · rw [keyboardInteractive_ends handler trace talk hinfo hagain]
        exact fun h ↦ mapAuthResult_ne_again _ hagain (Option.some.inj h)

end Dialogue

theorem mapAuthResult_info {answer : Answer} (operation : String) (h : answer.rc = sshAuthInfo) :
    mapAuthResult answer operation = .error {
      info := makeErrorInfo answer.last operation .fatal, function := "map_auth_result" } := by
  rw [mapAuthResult, h]
  rfl

/-- The loop against the dialogue that goes on without it: they come to the same unless a
challenge comes next. -/
theorem loop_compares (handler : Option Handler) {trace : List Answer} {talk plainTalk : Talk}
    (hinTime : InTime trace) (hloop : ¬ ChallengedInLoop talk)
    (hdialogue : talk.dialogue = plainTalk.dialogue) :
    let attempted := authAttempt true "ssh_userauth_kbdint" .userauthKbdint trace talk
    let plain := attemptKeyboardInteractive true handler (withoutAgain trace) plainTalk
    ¬ ChallengedInLoop attempted.talk ∧ Agree attempted plain ∨
      ChallengedInLoop attempted.talk ∧ Diverged attempted plain := by
  intro attempted plain
  have hsame : attempted.talk.dialogue = plainTalk.dialogue :=
    (authAttempt_dialogue true _ _ trace talk).trans hdialogue
  cases authAttempt_ends "ssh_userauth_kbdint" .userauthKbdint hinTime talk with
  | waits htrace houtcome hrest hends =>
    have hplain : plain = { outcome := none, rest := [], talk := plainTalk } :=
      congrArg (attemptKeyboardInteractive true handler · plainTalk) htrace
    rw [hplain]
    refine .inl ⟨mt hends.mp hloop, houtcome, hsame, ?_, ?_⟩
    · exact congrArg withoutAgain hrest
    · exact fun answer h ↦ absurd (hrest ▸ h) List.not_mem_nil
  | settles answer rest htrace hrestInTime hanswer houtcome hrest hends =>
    have hplain : plain =
        attemptKeyboardInteractive true handler (answer :: withoutAgain rest) plainTalk :=
      congrArg (attemptKeyboardInteractive true handler · plainTalk) htrace
    rw [hplain]
    by_cases hinfo : answer.rc = sshAuthInfo
    · refine .inr ⟨hends.mpr (.inr ⟨rfl, hinfo⟩), ?_, ?_⟩
      · exact ⟨_, houtcome.trans (congrArg some (mapAuthResult_info _ hinfo)), rfl⟩
      · cases handler with
        | none =>
          rw [keyboardInteractive_info none _ plainTalk hinfo]
          exact .inr ⟨_, rfl, rfl⟩
        | some handle =>
          rw [hsame]
          exact .inl (keyboardInteractive_shows _ plainTalk hinfo)
    · rw [keyboardInteractive_ends handler _ plainTalk hinfo hanswer]
      refine .inl ⟨fun h ↦ ?_, houtcome, hsame, congrArg withoutAgain hrest, hrest ▸ hrestInTime⟩
      exact (hends.mp h).elim hloop fun h ↦ hinfo h.2

theorem retries_keyboardInteractive (handler : Option Handler) :
    Retries (attemptKeyboardInteractive true handler) where
  grows := keyboardInteractive_grows handler
  settled := keyboardInteractive_settled handler
  compares trace talk plainTalk hinTime hloop hdialogue := by
    induction trace generalizing talk plainTalk with
    | nil => exact .inl ⟨hloop, rfl, hdialogue, rfl, hinTime⟩
    | cons answer trace ih =>
      have hasked : ¬ ChallengedInLoop (talk.asked .userauthKbdint answer.rc false) := by
        rw [challengedInLoop_asked]
        exact fun h ↦ h.elim hloop fun h ↦ Bool.false_ne_true h.2.2
      by_cases hagain : answer.rc = sshAuthAgain
      · rw [keyboardInteractive_again handler trace talk hagain, withoutAgain_cons_again hagain]
        exact loop_compares handler hinTime.tail hasked hdialogue
      by_cases hinfo : answer.rc = sshAuthInfo
      · rw [withoutAgain_cons hagain, keyboardInteractive_info handler trace talk hinfo,
          keyboardInteractive_info handler _ plainTalk hinfo, hdialogue]
        cases handler with
        | none => exact .inl ⟨hasked, rfl, hdialogue, rfl, hinTime.tail⟩
        | some handle =>
          dsimp only
          rcases handle plainTalk.dialogue answer.challenge.read with error | answers
          · refine .inl ⟨hasked, rfl, ?_, rfl, hinTime.tail⟩
            exact congrArg (· ++ _) hdialogue
          · refine ih _ _ hinTime.tail hasked ?_
            exact congrArg (fun dialogue ↦ dialogue ++ _ ++ _) hdialogue
      · rw [withoutAgain_cons hagain, keyboardInteractive_ends handler trace talk hinfo hagain,
          keyboardInteractive_ends handler _ plainTalk hinfo hagain]
        exact .inl ⟨hasked, rfl, hdialogue, rfl, hinTime.tail⟩

/-! ### Attempts one after the other -/

section Continue

variable {attempting : Attempting} {goesOn : AuthStatus → Bool} {next : AuthStatus → Attempting}
  {trace : List Answer} {talk : Talk}

theorem continueIf_goesOn {status : AuthStatus}
    (houtcome : (attempting trace talk).outcome = some (.ok status)) (hgoesOn : goesOn status) :
    continueIf attempting goesOn next trace talk =
      next status (attempting trace talk).rest (attempting trace talk).talk := by
  unfold continueIf
  simp only [houtcome, if_pos hgoesOn]

theorem continueIf_stops (hstops : ∀ status,
    (attempting trace talk).outcome = some (.ok status) → ¬ goesOn status) :
    continueIf attempting goesOn next trace talk = attempting trace talk := by
  unfold continueIf
  dsimp only
  split
  · rename_i status houtcome
    exact if_neg (hstops status houtcome)
  · rfl

/-- Either the next attempt follows on the first, or the first was the last. -/
theorem continueIf_cases (attempting : Attempting) (goesOn : AuthStatus → Bool)
    (next : AuthStatus → Attempting) (trace : List Answer) (talk : Talk) :
    (∃ status, (attempting trace talk).outcome = some (.ok status) ∧ goesOn status ∧
        continueIf attempting goesOn next trace talk =
          next status (attempting trace talk).rest (attempting trace talk).talk) ∨
      (∀ status, (attempting trace talk).outcome = some (.ok status) → ¬ goesOn status) ∧
        continueIf attempting goesOn next trace talk = attempting trace talk := by
  by_cases hgoesOn : ∃ status, (attempting trace talk).outcome = some (.ok status) ∧ goesOn status
  · obtain ⟨status, houtcome, hgoesOn⟩ := hgoesOn
    exact .inl ⟨status, houtcome, hgoesOn, continueIf_goesOn houtcome hgoesOn⟩
  · have hstops : ∀ status, (attempting trace talk).outcome = some (.ok status) →
        ¬ goesOn status := fun status houtcome hgoes ↦ hgoesOn ⟨status, houtcome, hgoes⟩
    exact .inr ⟨hstops, continueIf_stops hstops⟩

end Continue

theorem retries_continueIf {attempting : Attempting} {goesOn : AuthStatus → Bool}
    {next : AuthStatus → Attempting} (h : Retries attempting)
    (hnext : ∀ status, status ≠ .again → Retries (next status)) :
    Retries (continueIf attempting goesOn next) := by
  have hstatus : ∀ {trace talk status},
      (attempting trace talk).outcome = some (.ok status) → status ≠ .again :=
    fun houtcome hagain ↦ h.settled _ _ (houtcome.trans (by rw [hagain]))
  have hgrows : ∀ trace talk, (attempting trace talk).talk.dialogue <+:
      (continueIf attempting goesOn next trace talk).talk.dialogue := by
    intro trace talk
    rcases continueIf_cases attempting goesOn next trace talk with
      ⟨status, houtcome, -, hrun⟩ | ⟨-, hrun⟩
    · rw [hrun]
      exact (hnext status (hstatus houtcome)).grows _ _
    · rw [hrun]
  refine ⟨fun trace talk ↦ (h.grows trace talk).trans (hgrows trace talk), fun trace talk ↦ ?_,
    fun trace talk plainTalk hinTime hloop hdialogue ↦ ?_⟩
  · rcases continueIf_cases attempting goesOn next trace talk with
      ⟨status, houtcome, -, hrun⟩ | ⟨-, hrun⟩
    · rw [hrun]
      exact (hnext status (hstatus houtcome)).settled _ _
    · rw [hrun]
      exact h.settled trace talk
  · rcases h.compares trace talk plainTalk hinTime hloop hdialogue with
      ⟨hafter, hagree⟩ | ⟨hafter, hdiverged⟩
    · rcases continueIf_cases attempting goesOn next trace talk with
        ⟨status, houtcome, hgoesOn, hrun⟩ | ⟨hstops, hrun⟩
      · rw [hrun, continueIf_goesOn (hagree.outcome.symm.trans houtcome) hgoesOn, ← hagree.rest]
        exact (hnext status (hstatus houtcome)).compares _ _ _ hagree.inTime hafter
          hagree.dialogue
      · rw [hrun,
          continueIf_stops fun status houtcome ↦ hstops status (hagree.outcome.trans houtcome)]
        exact .inl ⟨hafter, hagree⟩
    · obtain ⟨error, herror, hfunction⟩ := hdiverged.gaveUp
      rw [continueIf_stops fun status houtcome ↦ (nomatch herror.symm.trans houtcome)]
      refine .inr ⟨hafter, ⟨error, herror, hfunction⟩, ?_⟩
      rcases hdiverged.wentOn with hlonger | ⟨other, hother, hattempt⟩
      · exact .inl (hlonger.trans_le (hgrows _ plainTalk).length_le)
      · rw [continueIf_stops fun status houtcome ↦ (nomatch hother.symm.trans houtcome)]
        exact .inr ⟨other, hother, hattempt⟩

/-- What ends without a call to libssh is the same on every trace. -/
theorem retries_of_outcome {outcome : Outcome} (h : outcome ≠ .ok .again) :
    Retries fun trace talk ↦ { outcome := some outcome, rest := trace, talk } where
  grows _ _ := List.prefix_rfl
  settled _ _ hagain := h (Option.some.inj hagain)
  compares _ _ _ hinTime hloop hdialogue := .inl ⟨hloop, rfl, hdialogue, rfl, hinTime⟩

mutual

theorem retries_attempt : ∀ authenticator, Retries (attempt true authenticator)
  | .none => by
    rw [attempt]
    exact retries_authAttempt _ nofun
  | .password password => by
    rw [attempt]
    exact retries_authAttempt _ nofun
  | .publicKeyAuto passphrase => by
    rw [attempt]
    exact retries_authAttempt _ nofun
  | .publicKey key => by
    rw [attempt]
    exact retries_continueIf (retries_authAttempt _ nofun) fun _ _ ↦ retries_authAttempt _ nofun
  | .agent => by
    rw [attempt]
    exact retries_authAttempt _ nofun
  | .keyboardInteractive handler => by
    rw [attempt]
    exact retries_keyboardInteractive handler
  | .lazyPassword callback => by
    rw [attempt]
    rcases callback.getD (.ok []) with error | password
    · exact retries_of_outcome nofun
    · exact retries_authAttempt _ nofun
  | .chain chain => by
    rw [attempt]
    exact retries_attemptChain chain .denied nofun

theorem retries_attemptChain : ∀ (chain : List Authenticator) (last : AuthStatus),
    last ≠ .again → Retries (attemptChain true chain last)
  | [], last, hlast => by
    rw [attemptChain]
    exact retries_of_outcome fun h ↦ hlast (Except.ok.inj h)
  | authenticator :: chain, last, _ => by
    rw [attemptChain]
    exact retries_continueIf (retries_attempt authenticator) fun status hstatus ↦
      retries_attemptChain chain status hstatus

end

/-- For every authenticator and every trace whose `SSH_AUTH_AGAIN` come in time: they leave the
attempt as it is without them if and only if no challenge is received in the loop of
`auth_attempt`. -/
theorem unaffected_iff (authenticator : Authenticator) (history : List DialogueEvent)
    (trace : List Answer) (hinTime : InTime trace) :
    Unaffected authenticator history trace ↔
      ¬ ChallengedInLoop (attempt true authenticator trace { dialogue := history }).talk := by
  have hretries := retries_attempt authenticator
  rcases hretries.compares trace { dialogue := history } { dialogue := history } hinTime
    List.not_mem_nil rfl with ⟨hloop, hagree⟩ | ⟨hloop, hdiverged⟩
  · exact iff_of_true ⟨hagree.outcome, hagree.dialogue, hretries.settled _ _⟩ hloop
  · refine iff_of_false (fun hunaffected ↦ ?_) (not_not.mpr hloop)
    rcases hdiverged.wentOn with hlonger | ⟨other, hother, hattempt⟩
    · exact absurd hlonger (hunaffected.dialogue ▸ lt_irrefl _)
    · obtain ⟨error, herror, hfunction⟩ := hdiverged.gaveUp
      rw [hunaffected.outcome, hother] at herror
      obtain rfl := Except.error.inj (Option.some.inj herror)
      exact absurd (hattempt.symm.trans hfunction) (by decide)

/-- A password prompt behind a rekeying. -/
def promptBehindAgain : List Answer :=
  [{ rc := sshAuthAgain },
    { rc := sshAuthInfo
      challenge := { prompts := [(some (ascii "Password: "), false)] } },
    { rc := sshAuthSuccess }]

theorem promptBehindAgain_fails :
    (attempt true (.keyboardInteractive (some (withPassword (ascii "secret"))))
        (withoutAgain promptBehindAgain) {}).outcome = some (.ok .success) ∧
      ¬ Unaffected (.keyboardInteractive (some (withPassword (ascii "secret")))) []
        promptBehindAgain := by
  refine ⟨by decide +kernel, fun hunaffected ↦ ?_⟩
  exact absurd hunaffected.outcome (by decide +kernel)

/-- The same between the answer to the prompt and the success. -/
def successBehindAgain : List Answer :=
  [{ rc := sshAuthInfo
     challenge := { prompts := [(some (ascii "Password: "), false)] } },
    { rc := sshAuthAgain }, { rc := sshAuthAgain }, { rc := sshAuthSuccess }]

theorem successBehindAgain_unaffected :
    Unaffected (.chain [.agent, .keyboardInteractive (some (withPassword (ascii "secret")))]) []
      ({ rc := sshAuthDenied } :: successBehindAgain) :=
  (unaffected_iff _ [] _ (by decide +kernel)).mpr (by decide +kernel)

end LibSshpp.Client
