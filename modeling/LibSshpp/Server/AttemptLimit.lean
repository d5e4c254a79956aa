import LibSshpp.Server.HandlerBridge

/-!
The attempt limit of `SimpleAuthHandler`. The documentation asks for the failed
attempts of a user to be counted. The counter sits at the start of the `none` and
password methods, before the outcome is known, and in the public-key method at
the very end, where only a registered key with a valid signature arrives: it
counts successes, and misses every failure by key.
-/

set_option autoImplicit false
set_option relaxedAutoImplicit false

namespace LibSshpp.Server

open Program

/-- Which return the handler takes for a callback. -/
def SimpleAuthHandler.judge : AuthCallback → StateM SimpleAuthHandler SimpleAuthHandler.Verdict
  | .authNone user => judgeNone (user.getD [])
  | .authPassword user password => judgePassword (user.getD []) (password.getD [])
  | .authPubkey user pubkey signatureState =>
    judgePublicKey (user.getD []) pubkey (publicKeyState signatureState)
  | .authGssapiMic _ _ => pure .denied

open SimpleAuthHandler

/-! ### Runs -/

/-- The callback reaches `record_attempt_and_check`. -/
def Counted (handler : SimpleAuthHandler) : AuthCallback → Prop
  | .authNone _ => True
  | .authPassword _ _ => True
  | .authPubkey user pubkey signatureState =>
    signatureState = .valid ∧ handler.admitsKey (user.getD []) pubkey = true
  | .authGssapiMic _ _ => False

instance (handler : SimpleAuthHandler) : DecidablePred (Counted handler)
  | .authNone _ => inferInstanceAs (Decidable True)
  | .authPassword _ _ => inferInstanceAs (Decidable True)
  | .authPubkey _ _ _ => inferInstanceAs (Decidable (_ ∧ _))
  | .authGssapiMic _ _ => inferInstanceAs (Decidable False)

/-- What the callback presents is accepted when no limit interferes. -/
def Admitted (handler : SimpleAuthHandler) : AuthCallback → Prop
  | .authNone user => handler.admitsNone (user.getD []) = true
  | .authPassword user password => handler.admitsPassword (user.getD []) (password.getD []) = true
  | .authPubkey user pubkey signatureState =>
    signatureState ≠ .wrong ∧ handler.admitsKey (user.getD []) pubkey = true
  | .authGssapiMic _ _ => False

instance (handler : SimpleAuthHandler) : DecidablePred (Admitted handler)
  | .authNone _ => inferInstanceAs (Decidable (_ = true))
  | .authPassword _ _ => inferInstanceAs (Decidable (_ = true))
  | .authPubkey _ _ _ => inferInstanceAs (Decidable (_ ∧ _))
  | .authGssapiMic _ _ => inferInstanceAs (Decidable False)

/-- The handler during a run, with what has happened to each user so far: the
attempts that failed, and of what was asked, the attempts that reach the counter
and those that present something unacceptable. -/
structure Watched where
  handler : SimpleAuthHandler
  failures : Bytes → ℕ := fun _ ↦ 0
  counted : Bytes → ℕ := fun _ ↦ 0
  unacceptable : Bytes → ℕ := fun _ ↦ 0

def Watched.verdict (watched : Watched) (callback : AuthCallback) : Verdict :=
  (judge callback watched.handler).1

/-- One more for the user of a callback, if the condition holds. -/
def tally (condition : Prop) [Decidable condition] (callback : AuthCallback)
    (counts : Bytes → ℕ) : Bytes → ℕ :=
  if condition then Function.update counts callback.user (counts callback.user + 1) else counts

/-- One callback; a refused one is a failed attempt, whatever the reason. -/
def watchStep (callback : AuthCallback) : StateM Watched Unit := fun watched ↦
  ((), {
    handler := (judge callback watched.handler).2
    failures := tally (watched.verdict callback ≠ .success) callback watched.failures
    counted := tally (Counted watched.handler callback) callback watched.counted
    unacceptable := tally (¬ Admitted watched.handler callback) callback watched.unacceptable })

/-- The callback is refused because of the limit exactly when as many attempts of
its user have failed before. -/
def LimitExact (watched : Watched) (callback : AuthCallback) : Prop :=
  watched.verdict callback = .limited ↔
    watched.handler.maxAttempts ≤ watched.failures callback.user

/-- The counter is right about the callback: the callback reaches it and as many
attempts of the user have reached it before as the limit allows, exactly when as
many have presented something unacceptable. -/
def CounterRight (watched : Watched) (callback : AuthCallback) : Prop :=
  (Counted watched.handler callback ∧
      watched.handler.maxAttempts ≤ watched.counted callback.user) ↔
    watched.handler.maxAttempts ≤ watched.unacceptable callback.user

/-! ### What one callback does -/

/-- The handler after an attempt of the user was recorded. -/
def SimpleAuthHandler.recorded (handler : SimpleAuthHandler) (user : Bytes) : SimpleAuthHandler :=
  { handler with attempts := Function.update handler.attempts user (handler.attempts user + 1) }

theorem judgeRecorded_spec (handler : SimpleAuthHandler) (user : Bytes)
    (admits : SimpleAuthHandler → Bool) :
    (judgeRecorded user admits handler).2 = handler.recorded user ∧
      ((judgeRecorded user admits handler).1 = .limited ↔
        handler.maxAttempts ≤ handler.attempts user) ∧
      ((judgeRecorded user admits handler).1 = .success ↔
        handler.attempts user < handler.maxAttempts ∧
          admits (handler.recorded user) = true) := by
  have hrecord : recordAttemptAndCheck user handler =
      (decide (handler.attempts user + 1 ≤ handler.maxAttempts), handler.recorded user) := rfl
  rw [judgeRecorded, bind_of_eq hrecord]
  by_cases hbelow : handler.attempts user + 1 ≤ handler.maxAttempts
  · rw [decide_eq_true hbelow]
    cases hadmits : admits (handler.recorded user) <;>
      simp [bind, StateT.bind, get, getThe, MonadStateOf.get, StateT.get, pure, stateT_pure,
        hadmits] <;> omega
  · rw [decide_eq_false hbelow]
    simp [pure, stateT_pure]
    omega

/-- A signed request with a registered key is recorded; every other request by
key is decided without the counter. -/
theorem judgePublicKey_eq (handler : SimpleAuthHandler) (user : Bytes) (key : Key)
    (state : PublicKeyState) :
    judgePublicKey user key state handler =
      if state = .valid ∧ handler.admitsKey user key = true then
        judgeRecorded user (fun _ ↦ true) handler
      else if state ≠ .wrong ∧ handler.admitsKey user key = true then (.success, handler)
      else (.denied, handler) := by
  have hlookup : judgePublicKey user key state handler =
      (if state = .wrong then pure .denied
      else if handler.admitsKey user key = true then
        if state = .valid then do
          if ← recordAttemptAndCheck user then pure .success else pure .limited
        else pure .success
      else pure .denied : StateM SimpleAuthHandler Verdict) handler := by
    cases state <;> rfl
  rw [hlookup]
  cases state <;> by_cases hkey : handler.admitsKey user key = true <;> simp [hkey] <;> rfl

/-- A counted callback is recorded first and refused over the limit. -/
theorem judge_counted {handler : SimpleAuthHandler} {callback : AuthCallback}
    (hcounted : Counted handler callback) :
    (judge callback handler).2 = handler.recorded callback.user ∧
      ((judge callback handler).1 = .limited ↔
        handler.maxAttempts ≤ handler.attempts callback.user) ∧
      ((judge callback handler).1 = .success ↔
        handler.attempts callback.user < handler.maxAttempts ∧ Admitted handler callback) := by
  cases callback with
  | authNone user => exact judgeRecorded_spec handler _ _
  | authPassword user password => exact judgeRecorded_spec handler _ _
  | authPubkey user pubkey signatureState =>
    obtain ⟨rfl, hkey⟩ := hcounted
    obtain ⟨hafter, hlimited, hsuccess⟩ := judgeRecorded_spec handler (user.getD []) fun _ ↦ true
    rw [judge, judgePublicKey_eq, if_pos ⟨rfl, hkey⟩]
    refine ⟨hafter, hlimited, hsuccess.trans (and_congr_right fun _ ↦ ?_)⟩
    exact iff_of_true rfl ⟨by simp, hkey⟩
  | authGssapiMic _ _ => exact hcounted.elim

/-- A callback that is not counted leaves the handler alone. -/
theorem judge_uncounted {handler : SimpleAuthHandler} {callback : AuthCallback}
    (huncounted : ¬ Counted handler callback) :
    (judge callback handler).2 = handler ∧ (judge callback handler).1 ≠ .limited ∧
      ((judge callback handler).1 = .success ↔ Admitted handler callback) := by
  cases callback with
  | authNone _ => exact absurd trivial huncounted
  | authPassword _ _ => exact absurd trivial huncounted
  | authGssapiMic _ _ => simp [judge, Admitted, pure, stateT_pure]
  | authPubkey user pubkey signatureState =>
    have hunsigned : ¬ (publicKeyState signatureState = .valid ∧
        handler.admitsKey (user.getD []) pubkey = true) := by
      cases signatureState <;> simp_all [Counted, publicKeyState]
    have hadmitted : Admitted handler (.authPubkey user pubkey signatureState) ↔
        publicKeyState signatureState ≠ .wrong ∧
          handler.admitsKey (user.getD []) pubkey = true := by
      cases signatureState <;> simp [Admitted, publicKeyState]
    rw [judge, judgePublicKey_eq, if_neg hunsigned, hadmitted]
    split_ifs with haccepted <;> simp [haccepted]

/-- The two counts are the same, or both past the limit. -/
def Matched (limit : ℤ) (failed unacceptable : ℕ) : Prop :=
  failed = unacceptable ∨ (limit ≤ failed ∧ limit ≤ unacceptable)

theorem Matched.le_iff {limit : ℤ} {failed unacceptable : ℕ}
    (h : Matched limit failed unacceptable) : limit ≤ failed ↔ limit ≤ unacceptable := by
  rcases h with rfl | ⟨hfailed, hunacceptable⟩
  · exact Iff.rfl
  · exact iff_of_true hfailed hunacceptable

theorem Matched.add {limit : ℤ} {failed unacceptable : ℕ} (h : Matched limit failed unacceptable)
    (more : ℕ) : Matched limit (failed + more) (unacceptable + more) := by
  rcases h with rfl | ⟨hfailed, hunacceptable⟩
  · exact .inl rfl
  · exact .inr ⟨by omega, by omega⟩

/-- The counter has seen the attempts that reach it, and the failures of a user
match the unacceptable attempts. -/
structure Accounted (watched : Watched) : Prop where
  attempts : ∀ user, watched.handler.attempts user = watched.counted user
  failures : ∀ user, Matched watched.handler.maxAttempts (watched.failures user)
    (watched.unacceptable user)

theorem tally_self {condition : Prop} [Decidable condition] (callback : AuthCallback)
    (counts : Bytes → ℕ) : tally condition callback counts callback.user =
      counts callback.user + if condition then 1 else 0 := by
  unfold tally
  split_ifs <;> simp

theorem tally_of_ne {condition : Prop} [Decidable condition] {callback : AuthCallback}
    {user : Bytes} (h : user ≠ callback.user) (counts : Bytes → ℕ) :
    tally condition callback counts user = counts user := by
  unfold tally
  split_ifs
  · exact Function.update_of_ne h _ _
  · rfl

theorem judge_limited_iff (handler : SimpleAuthHandler) (callback : AuthCallback) :
    (judge callback handler).1 = .limited ↔
      Counted handler callback ∧ handler.maxAttempts ≤ handler.attempts callback.user := by
  by_cases hcounted : Counted handler callback
  · rw [(judge_counted hcounted).2.1]
    exact (and_iff_right hcounted).symm
  · exact iff_of_false (judge_uncounted hcounted).2.1 fun h ↦ hcounted h.1

theorem judge_maxAttempts (handler : SimpleAuthHandler) (callback : AuthCallback) :
    (judge callback handler).2.maxAttempts = handler.maxAttempts := by
  by_cases hcounted : Counted handler callback
  · rw [(judge_counted hcounted).1]
    rfl
  · rw [(judge_uncounted hcounted).1]

theorem judge_entries (handler : SimpleAuthHandler) (callback : AuthCallback) :
    (judge callback handler).2.entries = handler.entries := by
  by_cases hcounted : Counted handler callback
  · rw [(judge_counted hcounted).1]
    rfl
  · rw [(judge_uncounted hcounted).1]

theorem judge_attempts (handler : SimpleAuthHandler) (callback : AuthCallback) (user : Bytes) :
    (judge callback handler).2.attempts user =
      handler.attempts user + if Counted handler callback ∧ user = callback.user then 1 else 0 := by
  by_cases hcounted : Counted handler callback
  · rw [(judge_counted hcounted).1]
    by_cases huser : user = callback.user
    · subst huser
      simp [recorded, hcounted]
    · simp [recorded, huser]
  · rw [(judge_uncounted hcounted).1, if_neg fun h ↦ hcounted h.1, Int.add_zero]

/-- An attempt that is refused for another reason than the limit presents
something unacceptable, and one that is accepted does not. -/
theorem judge_success_iff {handler : SimpleAuthHandler} {callback : AuthCallback}
    (h : (judge callback handler).1 ≠ .limited) :
    (judge callback handler).1 = .success ↔ Admitted handler callback := by
  by_cases hcounted : Counted handler callback
  · obtain ⟨-, hlimited, hsuccess⟩ := judge_counted hcounted
    exact hsuccess.trans (and_iff_right (Int.not_le.mp (mt hlimited.mpr h)))
  · exact (judge_uncounted hcounted).2.2

theorem limitExact_iff_counterRight {watched : Watched} (haccounted : Accounted watched)
    (callback : AuthCallback) : LimitExact watched callback ↔ CounterRight watched callback := by
  rw [LimitExact, Watched.verdict, judge_limited_iff, haccounted.attempts,
    (haccounted.failures callback.user).le_iff]
  rfl

theorem accounted_watchStep (callback : AuthCallback) :
    Triple (fun watched ↦ Accounted watched ∧ LimitExact watched callback)
      (watchStep callback) fun _ ↦ Accounted := by
  intro watched ⟨haccounted, hexact⟩
  constructor
  · intro user
    change (judge callback watched.handler).2.attempts user =
      ((tally (Counted watched.handler callback) callback watched.counted user : ℕ) : ℤ)
    rw [judge_attempts, haccounted.attempts]
    by_cases huser : user = callback.user
    · subst huser
      rw [tally_self]
      by_cases hcounted : Counted watched.handler callback <;> simp [hcounted]
    · rw [tally_of_ne huser, if_neg fun h ↦ huser h.2, Int.add_zero]
  · intro user
    change Matched (judge callback watched.handler).2.maxAttempts
      (tally (watched.verdict callback ≠ .success) callback watched.failures user)
      (tally (¬ Admitted watched.handler callback) callback watched.unacceptable user)
    rw [judge_maxAttempts]
    have hmatched := haccounted.failures user
    by_cases huser : user = callback.user
    · subst huser
      rw [tally_self, tally_self]
      by_cases hlimited : watched.verdict callback = .limited
      · -- past the limit both counts stay past it, whatever this attempt adds
        have hfailed := hexact.mp hlimited
        have hunacceptable := hmatched.le_iff.mp hfailed
        exact .inr ⟨by omega, by omega⟩
      · have hsuccess : watched.verdict callback = .success ↔ Admitted watched.handler callback :=
          judge_success_iff hlimited
        simp only [ne_eq, hsuccess]
        exact hmatched.add _
    · rw [tally_of_ne huser, tally_of_ne huser]
      exact hmatched

/-! ### The counter -/

/-- How many of the callbacks of a user reach the counter. -/
def countedFor (handler : SimpleAuthHandler) (user : Bytes) (callbacks : List AuthCallback) : ℕ :=
  callbacks.countP fun callback ↦ Counted handler callback ∧ user = callback.user

/-- What is counted goes by the entries alone. -/
theorem counted_congr {handler other : SimpleAuthHandler} (h : other.entries = handler.entries)
    (callback : AuthCallback) : Counted other callback ↔ Counted handler callback := by
  have hadmits (user : Bytes) (key : Key) : other.admitsKey user key = handler.admitsKey user key :=
    by rw [admitsKey, admitsKey, h]
  cases callback with
  | authPubkey user pubkey signatureState => rw [Counted, Counted, hadmits]
  | authNone user => exact Iff.rfl
  | authPassword user password => exact Iff.rfl
  | authGssapiMic user principal => exact Iff.rfl

theorem countedFor_congr {handler other : SimpleAuthHandler} (h : other.entries = handler.entries)
    (user : Bytes) (callbacks : List AuthCallback) :
    countedFor other user callbacks = countedFor handler user callbacks :=
  List.countP_congr fun callback _ ↦ by simp [counted_congr h]

/-- The counter of a user grows with every callback that reaches it. -/
theorem attempts_stateAfter (user : Bytes) (callbacks : List AuthCallback) (watched : Watched) :
    (stateAfter watchStep callbacks watched).handler.attempts user =
      watched.handler.attempts user + countedFor watched.handler user callbacks := by
  induction callbacks generalizing watched with
  | nil => exact (Int.add_zero _).symm
  | cons callback callbacks ih =>
    have hcount : countedFor watched.handler user (callback :: callbacks) =
        countedFor watched.handler user callbacks +
          if Counted watched.handler callback ∧ user = callback.user then 1 else 0 := by
      rw [countedFor, List.countP_cons]
      simp [countedFor]
    rw [stateAfter_cons, ih]
    change (judge callback watched.handler).2.attempts user +
      (countedFor (judge callback watched.handler).2 user callbacks : ℤ) = _
    rw [judge_attempts, countedFor_congr (judge_entries watched.handler callback), hcount]
    split_ifs <;> push_cast <;> omega

/-- In every run from a fresh handler, whatever its entries and its limit, in which
no user is counted more often than an `int` can tell, every callback is refused
because of the limit exactly when at least as many attempts of its user have failed
before, if and only if the counter is right about every callback. The counters stay
within an `int`. -/
theorem limitExact_iff (entries : Bytes → Option Entry) (maxAttempts : ℤ)
    (callbacks : List AuthCallback)
    (hcount : ∀ user, countedFor { entries, maxAttempts } user callbacks < 2 ^ 31) :
    (Allowed watchStep LimitExact callbacks { handler := { entries, maxAttempts } } ↔
        Allowed watchStep CounterRight callbacks { handler := { entries, maxAttempts } }) ∧
      ∀ served, served <+: callbacks → ∀ user,
        (stateAfter watchStep served { handler := { entries, maxAttempts } }).handler.attempts
          user < 2 ^ 31 := by
  constructor
  · exact allowed_iff_of_invariant
      (fun _ callback haccounted ↦ limitExact_iff_counterRight haccounted callback)
      accounted_watchStep ⟨fun _ ↦ rfl, fun _ ↦ .inl rfl⟩
  · intro served hserved user
    have hbelow : countedFor { entries, maxAttempts } user served < 2 ^ 31 :=
      hserved.sublist.countP_le.trans_lt (hcount user)
    rw [attempts_stateAfter]
    exact (Int.zero_add _).trans_lt (by exact_mod_cast hbelow)

/-- A handler that knows one user and the key of that user. -/
def oneUser : SimpleAuthHandler :=
  (allowPassword {} (ascii "ana") (ascii "secret")).allowPublicKey (ascii "ana")
    { fingerprint := .ok { bytes := [0xab] } }

def rightPassword : AuthCallback := .authPassword (some (ascii "ana")) (some (ascii "secret"))

def wrongSignature : AuthCallback :=
  .authPubkey (some (ascii "ana")) { fingerprint := .ok { bytes := [0xab] } } .wrong

/-- One login with the right password is let in. -/
theorem rightPassword_let_in :
    Allowed watchStep LimitExact [rightPassword] { handler := oneUser } :=
  (limitExact_iff oneUser.entries oneUser.maxAttempts [rightPassword]
    fun user ↦ List.countP_le_length.trans_lt (by decide)).1.mpr
      ⟨iff_of_false (by decide +kernel) (by decide +kernel), trivial⟩

/-- With the limit of six, the seventh login with the right password is refused
although none failed, and no number of wrong signatures leads to a refusal
because of the limit. -/
theorem rightPassword_locked_out :
    ¬ Allowed watchStep LimitExact (List.replicate 7 rightPassword) { handler := oneUser } ∧
      ¬ Allowed watchStep LimitExact (List.replicate 6 wrongSignature ++ [rightPassword])
        { handler := oneUser } := by
  constructor
  · rintro ⟨-, -, -, -, -, -, hseventh, -⟩
    exact absurd (hseventh.mp (by decide +kernel)) (by decide +kernel)
  · rintro ⟨-, -, -, -, -, -, hlogin, -⟩
    exact absurd (hlogin.mpr (by decide +kernel)) (by decide +kernel)

end LibSshpp.Server
