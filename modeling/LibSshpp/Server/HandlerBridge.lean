import LibSshpp.Program.StateTriple
import LibSshpp.Server.SessionHandler

/-!
The bridge between libssh's authentication callbacks and a `SessionHandler`. Two
parties keep a record of who is logged in: libssh goes by the value the callback
returns, the session by the flag the bridge sets. A success is a login in
libssh's eyes unless the request was a bare key offer; the bridge sets the flag
unless the request was a public-key request without a valid signature. A wrong
signature that a handler approves is where the two part.
-/

set_option autoImplicit false
set_option relaxedAutoImplicit false

namespace LibSshpp.Server

open Program

/-- The signature states libssh passes to the public-key callback. -/
inductive SignatureState
  | none | valid | wrong
  deriving DecidableEq, Repr

/-- `SSH_AUTH_SUCCESS`, `SSH_AUTH_DENIED` and `SSH_AUTH_PARTIAL`. -/
inductive AuthAnswer
  | success | denied | partialSuccess
  deriving DecidableEq, Repr

/-- The members of `server::Session` that record the login. -/
structure Login where
  authenticated : Bool := false
  user : Bytes := []
  deriving DecidableEq, Repr

/-- One authentication callback of libssh with its arguments; a null pointer is
`none`. -/
inductive AuthCallback
  | authNone (user : Option Bytes)
  | authPassword (user password : Option Bytes)
  | authPubkey (user : Option Bytes) (pubkey : Key) (signatureState : SignatureState)
  | authGssapiMic (user principal : Option Bytes)

/-- The bridge's handler and session. -/
structure Bridge (σ : Type) where
  handler : σ
  login : Login := {}

variable {σ : Type}

def publicKeyState : SignatureState → PublicKeyState
  | .valid => .valid
  | .wrong => .wrong
  | .none => .none

def applyAuthResult (r : AuthResult) (user : Option Bytes) (finalize : Bool) :
    StateM (Bridge σ) AuthAnswer := fun bridge ↦
  match r with
  | .success =>
    (.success, if finalize then
      { bridge with login := { authenticated := true, user := user.getD [] } } else bridge)
  | .partialSuccess => (.partialSuccess, bridge)
  | .denied => (.denied, bridge)

/-- Runs a method of the handler on the handler's state. -/
def callHandler {α : Type} (method : StateM σ α) : StateM (Bridge σ) α := fun bridge ↦
  let (value, handler) := method bridge.handler
  (value, { bridge with handler })

/-- `report_error`, in the trampolines that have it. -/
def reportError (handler : SessionHandler σ) (what : String) :
    Option String → StateM (Bridge σ) Unit
  | some operation =>
    callHandler (handler.onError { code := .ssh .unknown, message := what, operation })
  | none => pure ()

/-- The body of the trampolines: the handler's result is applied, and an exception
becomes a refusal; `reports` is the operation it is reported under. -/
def trampoline (handler : SessionHandler σ) (method : StateM σ HandlerOutcome)
    (user : Option Bytes) (finalize : Bool) (reports : Option String) :
    StateM (Bridge σ) AuthAnswer := do
  match ← callHandler method with
  | .returns r => applyAuthResult r user finalize
  | .throwsException what =>
    reportError handler what reports
    pure .denied
  | .throwsOther => pure .denied

/-- The four trampolines. `auth_gssapi_mic_cb` has no clause that reports. -/
def authCallback (handler : SessionHandler σ) : AuthCallback → StateM (Bridge σ) AuthAnswer
  | .authNone user =>
    trampoline handler (handler.onAuthNone (user.getD [])) user true (some "on_auth_none")
  | .authPassword user password =>
    trampoline handler (handler.onAuthPassword (user.getD []) (password.getD [])) user true
      (some "on_auth_password")
  | .authPubkey user pubkey signatureState =>
    let state := publicKeyState signatureState
    trampoline handler (handler.onAuthPublicKey (user.getD []) pubkey state) user
      (state == .valid) (some "on_auth_public_key")
  | .authGssapiMic user principal =>
    trampoline handler (handler.onAuthGssapiMic (user.getD []) (principal.getD [])) user true none

/-- One callback of a run. -/
def authStep (handler : SessionHandler σ) (callback : AuthCallback) : StateM (Bridge σ) Unit :=
  discard (authCallback handler callback)

/-! ### Agreement -/

def AuthCallback.user : AuthCallback → Bytes
  | .authNone user => user.getD []
  | .authPassword user _ => user.getD []
  | .authPubkey user _ _ => user.getD []
  | .authGssapiMic user _ => user.getD []

/-- The client only asks whether the key would do. -/
def AuthCallback.BareOffer : AuthCallback → Prop
  | .authPubkey _ _ signatureState => signatureState = .none
  | _ => False

def AuthCallback.WrongSignature : AuthCallback → Prop
  | .authPubkey _ _ signatureState => signatureState = .wrong
  | _ => False

/-- libssh and the session agree about a callback: they both take it as a login
of its user, or neither does; and a wrong signature is not answered with
success. -/
structure Agrees (handler : SessionHandler σ) (bridge : Bridge σ) (callback : AuthCallback) :
    Prop where
  login : (authCallback handler callback bridge).1 = .success → ¬ callback.BareOffer →
    (authCallback handler callback bridge).2.login =
      { authenticated := true, user := callback.user }
  unchanged : ¬ ((authCallback handler callback bridge).1 = .success ∧ ¬ callback.BareOffer) →
    (authCallback handler callback bridge).2.login = bridge.login
  wrong : callback.WrongSignature → (authCallback handler callback bridge).1 ≠ .success

/-- The handler approves a public key that comes with a wrong signature. -/
def ApprovesWrongSignature (handler : SessionHandler σ) (bridge : Bridge σ) :
    AuthCallback → Prop
  | .authPubkey user pubkey .wrong =>
    (handler.onAuthPublicKey (user.getD []) pubkey .wrong bridge.handler).1 = .returns .success
  | _ => False

theorem reportError_login (handler : SessionHandler σ) (what : String) (reports : Option String)
    (bridge : Bridge σ) : (reportError handler what reports bridge).2.login = bridge.login := by
  cases reports <;> rfl

/-- How a trampoline answers and what it does to the login. -/
theorem trampoline_spec (handler : SessionHandler σ) (method : StateM σ HandlerOutcome)
    (user : Option Bytes) (finalize : Bool) (reports : Option String) (bridge : Bridge σ) :
    ((trampoline handler method user finalize reports bridge).1 = .success ↔
        (method bridge.handler).1 = .returns .success) ∧
      (trampoline handler method user finalize reports bridge).2.login =
        if (method bridge.handler).1 = .returns .success ∧ finalize = true then
          { authenticated := true, user := user.getD [] }
        else bridge.login := by
  have hcall : callHandler method bridge = ((method bridge.handler).1,
      { bridge with handler := (method bridge.handler).2 }) := rfl
  rw [trampoline, bind_of_eq hcall]
  cases (method bridge.handler).1 with
  | returns result => cases result <;> cases finalize <;> simp [applyAuthResult]
  | throwsException what =>
    refine ⟨iff_of_false (fun h ↦ nomatch h) (fun h ↦ nomatch h), ?_⟩
    rw [if_neg (fun h ↦ nomatch h.1)]
    exact reportError_login handler what reports _
  | throwsOther => simp [pure, stateT_pure]

/-- A callback whose flag is set whenever libssh takes it as a login agrees. -/
theorem agrees_of_trampoline {handler : SessionHandler σ} {bridge : Bridge σ}
    {callback : AuthCallback} {method : StateM σ HandlerOutcome} {user : Option Bytes}
    {finalize : Bool} {reports : Option String}
    (hcallback : authCallback handler callback = trampoline handler method user finalize reports)
    (huser : callback.user = user.getD []) (hoffer : callback.BareOffer ↔ finalize = false)
    (hwrong : ¬ callback.WrongSignature) : Agrees handler bridge callback := by
  obtain ⟨hanswer, hlogin⟩ := trampoline_spec handler method user finalize reports bridge
  rw [← hcallback] at hanswer hlogin
  refine ⟨fun hsuccess hfinal ↦ ?_, fun hother ↦ ?_, fun h ↦ absurd h hwrong⟩
  · rw [hlogin, if_pos ⟨hanswer.mp hsuccess, by simpa [hoffer] using hfinal⟩, huser]
  · rw [hlogin, if_neg]
    rintro ⟨hsuccess, hfinalize⟩
    exact hother ⟨hanswer.mpr hsuccess, by simp [hoffer, hfinalize]⟩

theorem agrees_iff (handler : SessionHandler σ) (bridge : Bridge σ) (callback : AuthCallback) :
    Agrees handler bridge callback ↔ ¬ ApprovesWrongSignature handler bridge callback := by
  cases callback with
  | authNone user =>
    exact iff_of_true (agrees_of_trampoline rfl rfl (by simp [AuthCallback.BareOffer]) id) id
  | authPassword user password =>
    exact iff_of_true (agrees_of_trampoline rfl rfl (by simp [AuthCallback.BareOffer]) id) id
  | authGssapiMic user principal =>
    exact iff_of_true (agrees_of_trampoline rfl rfl (by simp [AuthCallback.BareOffer]) id) id
  | authPubkey user pubkey signatureState =>
    cases signatureState with
    | none =>
      refine iff_of_true (agrees_of_trampoline rfl rfl ?_ ?_) id
      · simp [AuthCallback.BareOffer, publicKeyState]
      · simp [AuthCallback.WrongSignature]
    | valid =>
      refine iff_of_true (agrees_of_trampoline rfl rfl ?_ ?_) id
      · simp [AuthCallback.BareOffer, publicKeyState]
      · simp [AuthCallback.WrongSignature]
    | wrong =>
      obtain ⟨hanswer, hlogin⟩ := trampoline_spec handler
        (handler.onAuthPublicKey (user.getD []) pubkey .wrong) user false
        (some "on_auth_public_key") bridge
      refine ⟨fun hagrees happroves ↦ hagrees.wrong rfl (hanswer.mpr happroves), fun hrefuses ↦ ?_⟩
      have hdenied : (authCallback handler (.authPubkey user pubkey .wrong) bridge).1 ≠ .success :=
        fun h ↦ hrefuses (hanswer.mp h)
      refine ⟨fun h ↦ absurd h hdenied, fun _ ↦ ?_, fun _ ↦ hdenied⟩
      exact hlogin.trans (if_neg (by simp))

/-! ### The shipped handlers -/

theorem simpleAuth_refuses_wrong (bridge : Bridge SimpleAuthHandler) (callback : AuthCallback) :
    ¬ ApprovesWrongSignature SimpleAuthHandler.sessionHandler bridge callback := by
  intro h
  match callback, h with
  | .authPubkey _ _ .wrong, h => exact nomatch h

/-- A public-key request with a wrong signature for the test server's user and one
of the authorized keys. -/
def TestServerOptions.WrongButAuthorized (options : TestServerOptions) : AuthCallback → Prop
  | .authPubkey user pubkey .wrong =>
    options.allowPublicKey = true ∧ user.getD [] = options.user ∧
      ∃ presented, pubkey.fingerprint = .ok presented ∧ options.authorizes presented = true
  | _ => False

theorem testServer_approves_wrong_iff (options : TestServerOptions) (bridge : Bridge Unit)
    (callback : AuthCallback) :
    ApprovesWrongSignature options.sessionHandler bridge callback ↔
      options.WrongButAuthorized callback := by
  match callback with
  | .authNone _ => exact Iff.rfl
  | .authPassword _ _ => exact Iff.rfl
  | .authGssapiMic _ _ => exact Iff.rfl
  | .authPubkey _ _ .none => exact Iff.rfl
  | .authPubkey _ _ .valid => exact Iff.rfl
  | .authPubkey user pubkey .wrong =>
    change HandlerOutcome.returns (options.onAuthPublicKey (user.getD []) pubkey .wrong) =
      .returns .success ↔ _
    rw [HandlerOutcome.returns.injEq, TestServerOptions.onAuthPublicKey]
    by_cases hoff : options.allowPublicKey = false ∨ user.getD [] ≠ options.user
    · rw [if_pos hoff]
      refine iff_of_false (by simp) fun ⟨hallow, huser, _⟩ ↦ ?_
      rcases hoff with hoff | hoff
      · simp [hoff] at hallow
      · exact hoff huser
    · rw [if_neg hoff]
      rw [not_or, Bool.not_eq_false, not_not] at hoff
      rcases hkey : pubkey.fingerprint with info | presented
      · refine iff_of_false (by simp) fun ⟨_, _, presented, hpresented, _⟩ ↦ ?_
        exact nomatch hkey.symm.trans hpresented
      · cases hauthorizes : options.authorizes presented with
        | false =>
          refine iff_of_false (by simp [hauthorizes]) fun ⟨_, _, other, hother, hothers⟩ ↦ ?_
          obtain rfl := Except.ok.inj (hkey.symm.trans hother)
          simp [hauthorizes] at hothers
        | true =>
          exact iff_of_true (by simp [hauthorizes]) ⟨hoff.1, hoff.2, presented, hkey, hauthorizes⟩

/-- Over every sequence of callbacks, libssh and the session agree about every
callback: for any handler, exactly when the handler approves no key that comes
with a wrong signature; for `SimpleAuthHandler`, always; for the test server,
exactly when no wrong signature comes with an authorized key of its user. -/
theorem bridge_agrees_iff {σ : Type} (handler : SessionHandler σ) (bridge : Bridge σ)
    (simpleBridge : Bridge SimpleAuthHandler) (options : TestServerOptions)
    (testBridge : Bridge Unit) (callbacks : List AuthCallback) :
    (Allowed (authStep handler) (Agrees handler) callbacks bridge ↔
      Allowed (authStep handler)
        (fun bridge callback ↦ ¬ ApprovesWrongSignature handler bridge callback)
        callbacks bridge) ∧
    Allowed (authStep SimpleAuthHandler.sessionHandler)
      (Agrees SimpleAuthHandler.sessionHandler) callbacks simpleBridge ∧
    (Allowed (authStep options.sessionHandler) (Agrees options.sessionHandler) callbacks
        testBridge ↔
      ∀ callback ∈ callbacks, ¬ options.WrongButAuthorized callback) := by
  refine ⟨allowed_congr (agrees_iff handler), ?_, ?_⟩
  · rw [allowed_congr fun bridge callback ↦ (agrees_iff _ bridge callback).trans
      (iff_true_intro (simpleAuth_refuses_wrong bridge callback)), allowed_forall_iff]
    exact fun _ _ ↦ trivial
  · rw [← allowed_forall_iff]
    exact allowed_congr fun bridge callback ↦ (agrees_iff _ bridge callback).trans
      (not_congr (testServer_approves_wrong_iff options bridge callback))

/-- A test server with one authorized key, which a client presents with a wrong
signature. -/
def oneKeyServer : TestServerOptions where
  authorizedKeys := [{ fingerprint := .ok { bytes := [0xab, 0xcd] } }]

def forgedLogin : AuthCallback :=
  .authPubkey (some (ascii "testuser")) { fingerprint := .ok { bytes := [0xab, 0xcd] } } .wrong

theorem forgedLogin_answered_success :
    (authCallback oneKeyServer.sessionHandler forgedLogin { handler := () }).1 = .success ∧
      (authCallback oneKeyServer.sessionHandler forgedLogin { handler := () }).2.login =
        { authenticated := false, user := [] } ∧
      ¬ Allowed (authStep oneKeyServer.sessionHandler) (Agrees oneKeyServer.sessionHandler)
        [forgedLogin] { handler := () } := by
  have hsuccess :
      (authCallback oneKeyServer.sessionHandler forgedLogin { handler := () }).1 = .success := by
    decide
  exact ⟨hsuccess, by decide, fun h ↦ h.1.wrong rfl hsuccess⟩

end LibSshpp.Server
