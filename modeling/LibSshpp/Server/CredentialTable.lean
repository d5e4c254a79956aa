import LibSshpp.Server.AttemptLimit

/-!
`SimpleAuthHandler` as a table of credentials. What a callback is answered depends on what was
entered into the table, on the limit, and on how many callbacks of the same user were counted
before; the hash maps, the counters and the loops over the bytes come to no more than that.
-/

set_option autoImplicit false
set_option relaxedAutoImplicit false

namespace LibSshpp.Server

open Program SimpleAuthHandler

/-! ### Filling the table -/

/-- A call that sets the handler up. -/
inductive TableCall
  | allowPassword (user password : Bytes)
  | allowPublicKey (user : Bytes) (publicKey : Key)
  | allowNone (user : Bytes)
  | setMaxAttempts (n : ℤ)

def tableStep : TableCall → StateM SimpleAuthHandler Unit
  | .allowPassword user password => fun handler ↦ ((), handler.allowPassword user password)
  | .allowPublicKey user publicKey => fun handler ↦ ((), handler.allowPublicKey user publicKey)
  | .allowNone user => fun handler ↦ ((), handler.allowNone user)
  | .setMaxAttempts n => fun handler ↦ ((), handler.setMaxAttempts n)

/-- A new handler, set up by the calls. -/
def configured (calls : List TableCall) : SimpleAuthHandler := stateAfter tableStep calls {}

/-- The passwords that were set for the user, one after the other. -/
def passwordsOf (calls : List TableCall) (user : Bytes) : List Bytes :=
  calls.filterMap fun
    | .allowPassword other password => if other = user then some password else none
    | _ => none

/-- The fingerprints of the keys that were allowed for the user; a key without one is passed
over. -/
def keysOf (calls : List TableCall) (user : Bytes) : List Fingerprint :=
  calls.filterMap fun
    | .allowPublicKey other publicKey =>
      if other = user then publicKey.fingerprint.toOption else none
    | _ => none

/-- Whether the user may log in with nothing. -/
def noneOf (calls : List TableCall) (user : Bytes) : Bool :=
  calls.any fun
    | .allowNone other => other == user
    | _ => false

/-- The limit that was set last, or the one a new handler has. -/
def limitOf (calls : List TableCall) : ℤ :=
  ((calls.filterMap fun
    | .setMaxAttempts n => some n
    | _ => none).getLast?).getD 6

/-- The user's line of the table. -/
def entryOf (calls : List TableCall) (user : Bytes) : Entry where
  password := (passwordsOf calls user).getLast?
  publicKeyFingerprints := keysOf calls user
  allowNone := noneOf calls user

/-- The calls leave the table they spell out, and count nothing. -/
structure Holds (calls : List TableCall) (handler : SimpleAuthHandler) : Prop where
  entries : ∀ user, (handler.entries user).getD {} = entryOf calls user
  maxAttempts : handler.maxAttempts = limitOf calls
  attempts : handler.attempts = fun _ ↦ 0

theorem updateEntry_getD (handler : SimpleAuthHandler) (user other : Bytes)
    (change : Entry → Entry) :
    ((handler.updateEntry user change).entries other).getD {} =
      if other = user then change ((handler.entries other).getD {})
      else (handler.entries other).getD {} := by
  by_cases hother : other = user
  · subst hother
    simp [updateEntry]
  · simp [updateEntry, hother]

/-- The user's line after one more call. -/
def TableCall.changed (call : TableCall) (user : Bytes) (entry : Entry) : Entry :=
  match call with
  | .allowPassword other password =>
    if user = other then { entry with password := some password } else entry
  | .allowPublicKey other publicKey =>
    if user = other then { entry with
      publicKeyFingerprints :=
        entry.publicKeyFingerprints ++ publicKey.fingerprint.toOption.toList }
    else entry
  | .allowNone other => if user = other then { entry with allowNone := true } else entry
  | .setMaxAttempts _ => entry

theorem tableStep_entries (call : TableCall) (handler : SimpleAuthHandler) (user : Bytes) :
    (((tableStep call handler).2.entries user).getD {}) =
      call.changed user ((handler.entries user).getD {}) := by
  cases call with
  | allowPassword other password =>
    exact updateEntry_getD handler other user fun entry ↦ { entry with password := some password }
  | allowPublicKey other publicKey =>
    rcases hkey : publicKey.fingerprint with info | fingerprint
    · simp [tableStep, allowPublicKey, TableCall.changed, hkey, Except.toOption]
    · simp only [tableStep, allowPublicKey, hkey]
      rw [updateEntry_getD, TableCall.changed, hkey]
      rfl
  | allowNone other =>
    exact updateEntry_getD handler other user fun entry ↦ { entry with allowNone := true }
  | setMaxAttempts n => rfl

theorem entryOf_concat (calls : List TableCall) (call : TableCall) (user : Bytes) :
    entryOf (calls ++ [call]) user = call.changed user (entryOf calls user) := by
  cases call with
  | allowPassword other password =>
    rw [TableCall.changed]
    split_ifs with huser
    · simp [entryOf, passwordsOf, keysOf, noneOf, huser]
    · simp [entryOf, passwordsOf, keysOf, noneOf, Ne.symm huser]
  | allowPublicKey other publicKey =>
    rw [TableCall.changed]
    split_ifs with huser
    · cases hkey : publicKey.fingerprint <;>
        simp [entryOf, passwordsOf, keysOf, noneOf, huser, hkey, Except.toOption]
    · simp [entryOf, passwordsOf, keysOf, noneOf, Ne.symm huser]
  | allowNone other =>
    rw [TableCall.changed]
    split_ifs with huser
    · simp [entryOf, passwordsOf, keysOf, noneOf, huser]
    · simp [entryOf, passwordsOf, keysOf, noneOf, Ne.symm huser]
  | setMaxAttempts n => simp [entryOf, passwordsOf, keysOf, noneOf, TableCall.changed]

/-- The limit after one more call. -/
def TableCall.changedLimit (call : TableCall) (limit : ℤ) : ℤ :=
  match call with
  | .setMaxAttempts n => n
  | _ => limit

theorem tableStep_counters (call : TableCall) (handler : SimpleAuthHandler) :
    (tableStep call handler).2.maxAttempts = call.changedLimit handler.maxAttempts ∧
      (tableStep call handler).2.attempts = handler.attempts := by
  cases call with
  | allowPassword other password => exact ⟨rfl, rfl⟩
  | allowPublicKey other publicKey =>
    simp only [tableStep, allowPublicKey]
    cases publicKey.fingerprint <;> exact ⟨rfl, rfl⟩
  | allowNone other => exact ⟨rfl, rfl⟩
  | setMaxAttempts n => exact ⟨rfl, rfl⟩

theorem limitOf_concat (calls : List TableCall) (call : TableCall) :
    limitOf (calls ++ [call]) = call.changedLimit (limitOf calls) := by
  cases call <;> simp [limitOf, TableCall.changedLimit]

theorem holds_tableStep {calls : List TableCall} {handler : SimpleAuthHandler}
    (h : Holds calls handler) (call : TableCall) :
    Holds (calls ++ [call]) (tableStep call handler).2 := by
  obtain ⟨hlimit, hattempts⟩ := tableStep_counters call handler
  refine ⟨fun user ↦ ?_, ?_, hattempts.trans h.attempts⟩
  · rw [tableStep_entries, entryOf_concat, h.entries]
  · rw [hlimit, limitOf_concat, h.maxAttempts]

theorem holds_configured (calls : List TableCall) : Holds calls (configured calls) := by
  induction calls using List.reverseRecOn with
  | nil => exact ⟨fun _ ↦ rfl, rfl, rfl⟩
  | append_singleton calls call ih =>
    rw [configured, stateAfter_append]
    exact holds_tableStep ih call

/-! ### What is in the table -/

/-- The credential that a callback presents is in the table, for that user: the password that was
set last, a key with the same type and bytes of fingerprint, or nothing at all. -/
def InTable (calls : List TableCall) : AuthCallback → Prop
  | .authNone user => noneOf calls (user.getD []) = true
  | .authPassword user password =>
    (passwordsOf calls (user.getD [])).getLast? = some (password.getD [])
  | .authPubkey user pubkey _ =>
    ∃ fingerprint ∈ keysOf calls (user.getD []), pubkey.fingerprint = .ok fingerprint
  | .authGssapiMic _ _ => False

instance (calls : List TableCall) : DecidablePred (InTable calls)
  | .authNone _ => inferInstanceAs (Decidable (_ = true))
  | .authPassword _ _ => inferInstanceAs (Decidable (_ = some _))
  | .authPubkey user _ _ =>
    inferInstanceAs (Decidable (∃ fingerprint ∈ keysOf calls (user.getD []), _ = _))
  | .authGssapiMic _ _ => inferInstanceAs (Decidable False)

/-- The attempts that count: by password or with nothing every one, by key those with a valid
signature and a key from the table. -/
def CountedBy (calls : List TableCall) : AuthCallback → Prop
  | .authNone _ => True
  | .authPassword _ _ => True
  | .authPubkey user pubkey signatureState =>
    signatureState = .valid ∧ InTable calls (.authPubkey user pubkey signatureState)
  | .authGssapiMic _ _ => False

instance (calls : List TableCall) : DecidablePred (CountedBy calls)
  | .authNone _ => inferInstanceAs (Decidable True)
  | .authPassword _ _ => inferInstanceAs (Decidable True)
  | .authPubkey _ _ _ => inferInstanceAs (Decidable (_ ∧ _))
  | .authGssapiMic _ _ => inferInstanceAs (Decidable False)

/-- How many attempts of the user were counted. -/
def countedOf (calls : List TableCall) (user : Bytes) (served : List AuthCallback) : ℕ :=
  served.countP fun callback ↦ CountedBy calls callback ∧ callback.user = user

/-! ### What the handler makes of it -/

theorem passwordsEqual_iff (a b : Bytes) : passwordsEqual a b = true ↔ a = b := by
  rw [passwordsEqual, Bool.and_eq_true, beq_iff_eq, beq_iff_eq]
  constructor
  · intro ⟨hlength, hdiff⟩
    exact (gatheredDiff_eq_zero_iff hlength).mp hdiff
  · rintro rfl
    exact ⟨rfl, (gatheredDiff_eq_zero_iff rfl).mpr rfl⟩

section Lookup

variable (handler : SimpleAuthHandler) (user : Bytes)

theorem admitsNone_eq :
    handler.admitsNone user = ((handler.entries user).getD {}).allowNone := by
  rw [admitsNone]
  cases handler.entries user <;> rfl

theorem admitsPassword_iff (password : Bytes) : handler.admitsPassword user password = true ↔
    ((handler.entries user).getD {}).password = some password := by
  rw [admitsPassword]
  rcases handler.entries user with _ | ⟨_ | stored, keys, allowed⟩
  · simp
  · simp
  · simp [passwordsEqual_iff]

theorem admitsKey_iff (key : Key) : handler.admitsKey user key = true ↔
    ∃ fingerprint ∈ ((handler.entries user).getD {}).publicKeyFingerprints,
      key.fingerprint = .ok fingerprint := by
  rw [admitsKey]
  rcases handler.entries user with _ | entry <;> rcases key.fingerprint with info | fingerprint
  · simp
  · simp
  · simp
  · simp only [List.any_eq_true, Fingerprint.equal_iff, Option.getD_some, Except.ok.injEq]
    exact exists_congr fun allowed ↦ and_congr_right fun _ ↦ eq_comm

end Lookup

section Lines

variable {calls : List TableCall} {handler : SimpleAuthHandler}
  (hentries : ∀ user, (handler.entries user).getD {} = entryOf calls user)

include hentries

theorem admitted_iff (callback : AuthCallback) :
    Admitted handler callback ↔ ¬ callback.WrongSignature ∧ InTable calls callback := by
  cases callback with
  | authNone user => simp [Admitted, InTable, AuthCallback.WrongSignature, admitsNone_eq,
      hentries, entryOf]
  | authPassword user password => simp [Admitted, InTable, AuthCallback.WrongSignature,
      admitsPassword_iff, hentries, entryOf]
  | authPubkey user pubkey signatureState => simp [Admitted, InTable,
      AuthCallback.WrongSignature, admitsKey_iff, hentries, entryOf]
  | authGssapiMic _ _ => simp [Admitted, InTable]

theorem counted_iff (callback : AuthCallback) :
    Counted handler callback ↔ CountedBy calls callback := by
  cases callback with
  | authNone _ => exact Iff.rfl
  | authPassword _ _ => exact Iff.rfl
  | authPubkey user pubkey signatureState =>
    rw [Counted, CountedBy, InTable, admitsKey_iff, hentries]
    rfl
  | authGssapiMic _ _ => exact Iff.rfl

end Lines

/-! ### Runs -/

/-- The method of a handler that a callback calls, with what it is called with. -/
def SessionHandler.method {σ : Type} (handler : SessionHandler σ) :
    AuthCallback → StateM σ HandlerOutcome
  | .authNone user => handler.onAuthNone (user.getD [])
  | .authPassword user password => handler.onAuthPassword (user.getD []) (password.getD [])
  | .authPubkey user pubkey signatureState =>
    handler.onAuthPublicKey (user.getD []) pubkey (publicKeyState signatureState)
  | .authGssapiMic user principal => handler.onAuthGssapiMic (user.getD []) (principal.getD [])

def serveStep (callback : AuthCallback) : StateM SimpleAuthHandler Unit :=
  discard (sessionHandler.method callback)

/-- The handler after it was set up and has served some callbacks. -/
def handlerAfter (calls : List TableCall) (served : List AuthCallback) : SimpleAuthHandler :=
  stateAfter serveStep served (configured calls)

/-- What the next callback is answered. -/
def answer (calls : List TableCall) (served : List AuthCallback) (callback : AuthCallback) :
    HandlerOutcome :=
  (sessionHandler.method callback (handlerAfter calls served)).1

theorem method_eq (callback : AuthCallback) (handler : SimpleAuthHandler) :
    sessionHandler.method callback handler =
      (.returns (judge callback handler).1.result, (judge callback handler).2) := by
  cases callback <;> rfl

/-- The table is as it was set up, and the counters count. -/
structure Counts (calls : List TableCall) (served : List AuthCallback)
    (handler : SimpleAuthHandler) : Prop where
  entries : ∀ user, (handler.entries user).getD {} = entryOf calls user
  maxAttempts : handler.maxAttempts = limitOf calls
  attempts : ∀ user, handler.attempts user = countedOf calls user served

theorem counts_serveStep {calls : List TableCall} {served : List AuthCallback}
    {handler : SimpleAuthHandler} (h : Counts calls served handler) (callback : AuthCallback) :
    Counts calls (served ++ [callback]) (serveStep callback handler).2 := by
  have hafter : (serveStep callback handler).2 = (judge callback handler).2 :=
    congrArg Prod.snd (method_eq callback handler)
  rw [hafter]
  refine ⟨fun user ↦ ?_, (judge_maxAttempts handler callback).trans h.maxAttempts, fun user ↦ ?_⟩
  · rw [judge_entries, h.entries]
  · have hcounted : (Counted handler callback ∧ user = callback.user) ↔
        CountedBy calls callback ∧ callback.user = user :=
      and_congr (counted_iff h.entries callback) eq_comm
    rw [judge_attempts, h.attempts, countedOf, countedOf, List.countP_append,
      List.countP_singleton]
    by_cases hcall : CountedBy calls callback ∧ callback.user = user
    · rw [if_pos (hcounted.mpr hcall), if_pos (decide_eq_true hcall)]
      exact (Int.natCast_succ _).symm
    · rw [if_neg (mt hcounted.mp hcall), if_neg (by simpa using hcall), Int.add_zero, Nat.add_zero]

theorem counts_handlerAfter (calls : List TableCall) (served : List AuthCallback) :
    Counts calls served (handlerAfter calls served) := by
  induction served using List.reverseRecOn with
  | nil =>
    have hholds := holds_configured calls
    refine ⟨hholds.entries, hholds.maxAttempts, fun user ↦ ?_⟩
    exact congrFun hholds.attempts user
  | append_singleton served callback ih =>
    rw [handlerAfter, stateAfter_append]
    exact counts_serveStep ih callback

theorem AuthCallback.BareOffer.not_wrongSignature {callback : AuthCallback}
    (h : callback.BareOffer) : ¬ callback.WrongSignature := by
  cases callback with
  | authPubkey user pubkey signatureState =>
    intro hwrong
    exact nomatch h.symm.trans hwrong
  | authNone user => exact id
  | authPassword user password => exact id
  | authGssapiMic user principal => exact id

/-- When a callback is answered with success. -/
def Grants (calls : List TableCall) (callback : AuthCallback) (count : ℕ) : Prop :=
  ¬ callback.WrongSignature ∧ InTable calls callback ∧
    (¬ callback.BareOffer → (count : ℤ) < limitOf calls)

/-- Of what is in the table, everything but an offer counts. -/
theorem countedBy_iff {calls : List TableCall} {callback : AuthCallback}
    (hsigned : ¬ callback.WrongSignature) (hlisted : InTable calls callback) :
    CountedBy calls callback ↔ ¬ callback.BareOffer := by
  cases callback with
  | authNone user => simp [CountedBy, AuthCallback.BareOffer]
  | authPassword user password => simp [CountedBy, AuthCallback.BareOffer]
  | authPubkey user pubkey signatureState =>
    cases signatureState with
    | none => simp [CountedBy, AuthCallback.BareOffer]
    | valid => simpa [CountedBy, AuthCallback.BareOffer] using hlisted
    | wrong => exact absurd rfl hsigned
  | authGssapiMic user principal => exact hlisted.elim

theorem judge_success_iff_grants {calls : List TableCall} {served : List AuthCallback}
    {handler : SimpleAuthHandler} (h : Counts calls served handler) (callback : AuthCallback) :
    (judge callback handler).1 = .success ↔
      Grants calls callback (countedOf calls callback.user served) := by
  have hadmitted := admitted_iff h.entries callback
  have hcount : handler.attempts callback.user < handler.maxAttempts ↔
      (countedOf calls callback.user served : ℤ) < limitOf calls := by
    rw [h.attempts, h.maxAttempts]
  by_cases hcounted : Counted handler callback
  · rw [(judge_counted hcounted).2.2, hcount, hadmitted]
    constructor
    · intro ⟨hbelow, hsigned, hlisted⟩
      exact ⟨hsigned, hlisted, fun _ ↦ hbelow⟩
    · intro ⟨hsigned, hlisted, hbelow⟩
      have hlogin :=
        (countedBy_iff hsigned hlisted).mp ((counted_iff h.entries callback).mp hcounted)
      exact ⟨hbelow hlogin, hsigned, hlisted⟩
  · rw [(judge_uncounted hcounted).2.2, hadmitted]
    constructor
    · intro ⟨hsigned, hlisted⟩
      refine ⟨hsigned, hlisted, fun hlogin ↦ absurd ?_ hcounted⟩
      exact (counted_iff h.entries callback).mpr ((countedBy_iff hsigned hlisted).mpr hlogin)
    · intro ⟨hsigned, hlisted, _⟩
      exact ⟨hsigned, hlisted⟩

theorem Verdict.result_eq (verdict : Verdict) :
    verdict.result = if verdict = .success then .success else .denied := by
  cases verdict <;> rfl

open Classical in
/-- What a callback is answered, from the table and the count of its user. -/
theorem answer_eq (calls : List TableCall) (served : List AuthCallback)
    (callback : AuthCallback) : answer calls served callback =
      .returns (if Grants calls callback (countedOf calls callback.user served) then .success
        else .denied) := by
  rw [answer, method_eq, Verdict.result_eq]
  simp only [judge_success_iff_grants (counts_handlerAfter calls served) callback]

theorem answer_success_iff {calls : List TableCall} {served : List AuthCallback}
    {callback : AuthCallback} : answer calls served callback = .returns .success ↔
      Grants calls callback (countedOf calls callback.user served) := by
  rw [answer_eq]
  split_ifs with hgrants
  · exact iff_of_true rfl hgrants
  · exact iff_of_false nofun hgrants

/-- A handler that was set up by `calls` and has served `served` answers the next callback by its
table. -/
structure AnsweredByTable (calls : List TableCall) (served : List AuthCallback)
    (callback : AuthCallback) : Prop where
  /-- What can complete a login succeeds by a credential from the table, within the limit. -/
  login : ¬ callback.BareOffer → ¬ callback.WrongSignature →
    (answer calls served callback = .returns .success ↔ InTable calls callback ∧
      (countedOf calls callback.user served : ℤ) < limitOf calls)
  offer : callback.BareOffer →
    (answer calls served callback = .returns .success ↔ InTable calls callback)
  wrong : callback.WrongSignature → answer calls served callback ≠ .returns .success
  /-- Whatever else the other users have done, the answer is the same. -/
  others : ∀ other : List AuthCallback,
    other.filter (·.user = callback.user) = served.filter (·.user = callback.user) →
      answer calls other callback = answer calls served callback
  /-- The counter is the number of counted attempts, and stays within an `int`. -/
  counter : (handlerAfter calls (served ++ [callback])).attempts callback.user =
      countedOf calls callback.user (served ++ [callback]) ∧
    (handlerAfter calls (served ++ [callback])).attempts callback.user < 2 ^ 31

theorem countedOf_eq_of_filter {calls : List TableCall} {user : Bytes}
    {served other : List AuthCallback}
    (h : other.filter (·.user = user) = served.filter (·.user = user)) :
    countedOf calls user other = countedOf calls user served := by
  have hfilter : ∀ callbacks : List AuthCallback, countedOf calls user callbacks =
      (callbacks.filter (·.user = user)).countP (CountedBy calls ·) := by
    intro callbacks
    rw [List.countP_filter, countedOf]
    exact List.countP_congr fun callback _ ↦ by simp
  rw [hfilter, hfilter, h]

/-- For every set-up and every interleaving of the callbacks of any users, the handler answers by
its table. -/
theorem answered_by_table (calls : List TableCall) (served : List AuthCallback)
    (callback : AuthCallback)
    (hcount : ∀ user, countedOf calls user (served ++ [callback]) < 2 ^ 31) :
    AnsweredByTable calls served callback where
  login hlogin hsigned := by
    rw [answer_success_iff]
    constructor
    · intro ⟨_, hlisted, hbelow⟩
      exact ⟨hlisted, hbelow hlogin⟩
    · intro ⟨hlisted, hbelow⟩
      exact ⟨hsigned, hlisted, fun _ ↦ hbelow⟩
  offer hoffer := by
    rw [answer_success_iff]
    constructor
    · intro ⟨_, hlisted, _⟩
      exact hlisted
    · intro hlisted
      exact ⟨hoffer.not_wrongSignature, hlisted, fun hlogin ↦ absurd hoffer hlogin⟩
  wrong hwrong := by
    rw [ne_eq, answer_success_iff]
    exact fun hgrants ↦ hgrants.1 hwrong
  others other hother := by
    rw [answer_eq, answer_eq, countedOf_eq_of_filter hother]
  counter := by
    have hattempts := (counts_handlerAfter calls (served ++ [callback])).attempts callback.user
    refine ⟨hattempts, ?_⟩
    rw [hattempts]
    exact_mod_cast hcount callback.user

/-- Two users; the limit is set to one, and the password of the first is set twice. -/
def twoUsers : List TableCall :=
  [.allowPassword (ascii "ana") (ascii "old"), .allowPassword (ascii "ana") (ascii "new"),
    .allowPublicKey (ascii "bob") { fingerprint := .ok { bytes := [0xab] } }, .setMaxAttempts 1]

/-- After one attempt of the other user, the password that was set last is still accepted. -/
theorem answered_twoUsers :
    AnsweredByTable twoUsers [.authPassword (some (ascii "bob")) (some (ascii "guess"))]
        (.authPassword (some (ascii "ana")) (some (ascii "new"))) ∧
      answer twoUsers [.authPassword (some (ascii "bob")) (some (ascii "guess"))]
        (.authPassword (some (ascii "ana")) (some (ascii "new"))) = .returns .success := by
  have hanswered := answered_by_table twoUsers
    [.authPassword (some (ascii "bob")) (some (ascii "guess"))]
    (.authPassword (some (ascii "ana")) (some (ascii "new")))
    fun user ↦ (List.countP_le_length).trans_lt (by decide)
  exact ⟨hanswered, (hanswered.login id id).mpr ⟨by decide, by decide⟩⟩

end LibSshpp.Server
