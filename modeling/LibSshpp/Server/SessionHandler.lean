import LibSshpp.Foundation.Bytes
import LibSshpp.Foundation.Error
import LibSshpp.Foundation.Fingerprint
import Mathlib.Logic.Function.Basic

/-!
The server's authentication callbacks and the handlers the library ships for
them. A `SessionHandler` is any implementation of the interface, with a state of
its own and the freedom to throw; `SimpleAuthHandler` and the test server's
handler are two of them.
-/

set_option autoImplicit false
set_option relaxedAutoImplicit false

namespace LibSshpp.Server

inductive AuthResult
  | success | denied | partialSuccess
  deriving DecidableEq, Repr

inductive PublicKeyState
  | none | valid | wrong
  deriving DecidableEq, Repr

/-- A public key, as far as the handlers look at it: what `Key::fingerprint`
gives. -/
structure Key where
  fingerprint : Result Fingerprint

/-- How a handler's method ends: with a result, with an exception derived from
`std::exception`, or with any other one. -/
inductive HandlerOutcome
  | returns (result : AuthResult)
  | throwsException (what : String)
  | throwsOther
  deriving DecidableEq, Repr

/-- An implementation of the `SessionHandler` interface over states `σ`. What
`on_error` throws is swallowed, so only its effect on the state is seen. -/
structure SessionHandler (σ : Type) where
  onAuthNone : Bytes → StateM σ HandlerOutcome
  onAuthPassword : Bytes → Bytes → StateM σ HandlerOutcome
  onAuthPublicKey : Bytes → Key → PublicKeyState → StateM σ HandlerOutcome
  onAuthGssapiMic : Bytes → Bytes → StateM σ HandlerOutcome
  onError : ErrorInfo → StateM σ Unit

/-! ### SimpleAuthHandler -/

/-- `SimpleAuthHandler::Entry`. -/
structure Entry where
  password : Option Bytes := none
  publicKeyFingerprints : List Fingerprint := []
  allowNone : Bool := false
  deriving DecidableEq, Repr

/-- `SimpleAuthHandler`, its maps as functions: users without an entry have none,
and a user without a count has the count zero. -/
structure SimpleAuthHandler where
  entries : Bytes → Option Entry := fun _ ↦ none
  attempts : Bytes → ℤ := fun _ ↦ 0
  maxAttempts : ℤ := 6

namespace SimpleAuthHandler

/-- `entries_[user]`, changed. -/
def updateEntry (handler : SimpleAuthHandler) (user : Bytes) (change : Entry → Entry) :
    SimpleAuthHandler :=
  { handler with
    entries := Function.update handler.entries user
      (some (change ((handler.entries user).getD {}))) }

def allowPassword (handler : SimpleAuthHandler) (user password : Bytes) : SimpleAuthHandler :=
  handler.updateEntry user fun entry ↦ { entry with password := some password }

def allowPublicKey (handler : SimpleAuthHandler) (user : Bytes) (publicKey : Key) :
    SimpleAuthHandler :=
  match publicKey.fingerprint with
  | .error _ => handler
  | .ok fingerprint => handler.updateEntry user fun entry ↦
      { entry with publicKeyFingerprints := entry.publicKeyFingerprints ++ [fingerprint] }

def allowNone (handler : SimpleAuthHandler) (user : Bytes) : SimpleAuthHandler :=
  handler.updateEntry user fun entry ↦ { entry with allowNone := true }

def setMaxAttempts (handler : SimpleAuthHandler) (n : ℤ) : SimpleAuthHandler :=
  { handler with maxAttempts := n }

/-- Which return a method takes: the refusal of `record_attempt_and_check`, any
other refusal, or the acceptance. -/
inductive Verdict
  | limited | denied | success
  deriving DecidableEq, Repr

def Verdict.result : Verdict → AuthResult
  | .limited => .denied
  | .denied => .denied
  | .success => .success

def recordAttemptAndCheck (user : Bytes) : StateM SimpleAuthHandler Bool := fun handler ↦
  let count := handler.attempts user + 1
  (decide (count ≤ handler.maxAttempts),
    { handler with attempts := Function.update handler.attempts user count })

/-- The comparison of the passwords, which walks over both buffers. -/
def passwordsEqual (a b : Bytes) : Bool :=
  a.length == b.length && gatheredDiff a b == 0

def admitsNone (handler : SimpleAuthHandler) (user : Bytes) : Bool :=
  match handler.entries user with
  | some entry => entry.allowNone
  | none => false

def admitsPassword (handler : SimpleAuthHandler) (user password : Bytes) : Bool :=
  match handler.entries user with
  | some { password := some stored, .. } => passwordsEqual stored password
  | _ => false

/-- The user's fingerprints contain the one of the key; an empty list and a key
without fingerprint are refused on the way. -/
def admitsKey (handler : SimpleAuthHandler) (user : Bytes) (key : Key) : Bool :=
  match handler.entries user, key.fingerprint with
  | some entry, .ok fingerprint =>
    entry.publicKeyFingerprints.any fun allowed ↦ allowed.equal fingerprint
  | _, _ => false

/-- An attempt that is recorded before what it presents is looked at. -/
def judgeRecorded (user : Bytes) (admits : SimpleAuthHandler → Bool) :
    StateM SimpleAuthHandler Verdict := do
  if ← recordAttemptAndCheck user then
    pure (if admits (← get) then .success else .denied)
  else pure .limited

/-- `on_auth_none`. -/
def judgeNone (user : Bytes) : StateM SimpleAuthHandler Verdict :=
  judgeRecorded user fun handler ↦ handler.admitsNone user

/-- `on_auth_password`. -/
def judgePassword (user password : Bytes) : StateM SimpleAuthHandler Verdict :=
  judgeRecorded user fun handler ↦ handler.admitsPassword user password

/-- `on_auth_public_key`, which records an attempt only when it is about to
accept a signed request. -/
def judgePublicKey (user : Bytes) (key : Key) (state : PublicKeyState) :
    StateM SimpleAuthHandler Verdict := do
  if state = .wrong then pure .denied
  else if (← get).admitsKey user key then
    if state = .valid then
      if ← recordAttemptAndCheck user then pure .success else pure .limited
    else pure .success
  else pure .denied

/-- The handler as an implementation of the interface. `on_auth_gssapi_mic` and
`on_error` are inherited. -/
def sessionHandler : SessionHandler SimpleAuthHandler where
  onAuthNone user := do pure (.returns (← judgeNone user).result)
  onAuthPassword user password := do pure (.returns (← judgePassword user password).result)
  onAuthPublicKey user key state := do pure (.returns (← judgePublicKey user key state).result)
  onAuthGssapiMic _ _ := pure (.returns .denied)
  onError _ := pure ()

end SimpleAuthHandler

/-! ### The test server's handler -/

/-- `TestServer::Options`, as far as authentication reads them. -/
structure TestServerOptions where
  user : Bytes := ascii "testuser"
  password : Bytes := ascii "testpass"
  authorizedKeys : List Key := []
  allowPassword : Bool := true
  allowPublicKey : Bool := true

namespace TestServerOptions

def onAuthPassword (options : TestServerOptions) (user password : Bytes) : AuthResult :=
  if options.allowPassword = false ∨ user ≠ options.user then .denied
  else if password = options.password then .success
  else .denied

/-- Some authorized key has the given fingerprint. -/
def authorizes (options : TestServerOptions) (presented : Fingerprint) : Bool :=
  options.authorizedKeys.any fun allowed ↦
    match allowed.fingerprint with
    | .ok fingerprint => fingerprint.equal presented
    | .error _ => false

/-- The signature state is not looked at. -/
def onAuthPublicKey (options : TestServerOptions) (user : Bytes) (key : Key)
    (_state : PublicKeyState) : AuthResult :=
  if options.allowPublicKey = false ∨ user ≠ options.user then .denied
  else match key.fingerprint with
    | .error _ => .denied
    | .ok presented => if options.authorizes presented then .success else .denied

/-- `TestServerSessionHandler`; the other methods are inherited. -/
def sessionHandler (options : TestServerOptions) : SessionHandler Unit where
  onAuthNone _ := pure (.returns .denied)
  onAuthPassword user password := pure (.returns (options.onAuthPassword user password))
  onAuthPublicKey user key state := pure (.returns (options.onAuthPublicKey user key state))
  onAuthGssapiMic _ _ := pure (.returns .denied)
  onError _ := pure ()

end TestServerOptions

end LibSshpp.Server
