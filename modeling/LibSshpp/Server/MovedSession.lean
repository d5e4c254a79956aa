import LibSshpp.Program.Lockstep
import LibSshpp.Server.HandlerBridge

/-!
A server session that is moved after a handler was installed on it. The bridge keeps the
address of the object it was installed on and records every login there; the connection,
the record of the login so far and the bridge itself go where the session is moved to.
-/

set_option autoImplicit false
set_option relaxedAutoImplicit false

namespace LibSshpp.Server

open Program

variable {σ : Type}

/-- The session objects of a program, as far as they record logins: which of them owns the
connection, and which one the bridge has the address of. -/
structure Sessions (σ : Type) where
  handler : σ
  vars : ℕ → Login := fun _ ↦ {}
  owner : ℕ
  installedOn : ℕ

/-- A callback of libssh, or a move of the session to another object, constructed or
assigned to; `leftUser` is what the move leaves in the `user_` it was made from. -/
inductive SessionEvent
  | auth (callback : AuthCallback)
  | move (target : ℕ) (leftUser : Bytes)

namespace Sessions

/-- The bridge at work on the object it has the address of. -/
def auth (handler : SessionHandler σ) (callback : AuthCallback) (sessions : Sessions σ) :
    Sessions σ :=
  let after := (authCallback handler callback {
    handler := sessions.handler, login := sessions.vars sessions.installedOn }).2
  { sessions with
    handler := after.handler
    vars := Function.update sessions.vars sessions.installedOn after.login }

/-- The move constructor and the move assignment. The flag is copied, and the string is
moved, also onto itself. -/
def move (target : ℕ) (leftUser : Bytes) (sessions : Sessions σ) : Sessions σ :=
  let login := sessions.vars sessions.owner
  { sessions with
    owner := target
    vars := Function.update (Function.update sessions.vars target login) sessions.owner
      { login with user := leftUser } }

end Sessions

def sessionStep (handler : SessionHandler σ) : SessionEvent → StateM (Sessions σ) Unit
  | .auth callback => fun sessions ↦ ((), sessions.auth handler callback)
  | .move target leftUser => fun sessions ↦ ((), sessions.move target leftUser)

/-- What the object says that owns the connection. -/
def Sessions.login (sessions : Sessions σ) : Login := sessions.vars sessions.owner

/-- What of an event happens in the run without any moves. -/
def SessionEvent.callback : SessionEvent → Option AuthCallback
  | .auth callback => some callback
  | .move _ _ => none

/-! ### What a callback records -/

/-- The handler approves a callback that is a login. -/
def LogsIn (handler : SessionHandler σ) (state : σ) : AuthCallback → Prop
  | .authNone user => (handler.onAuthNone (user.getD []) state).1 = .returns .success
  | .authPassword user password =>
    (handler.onAuthPassword (user.getD []) (password.getD []) state).1 = .returns .success
  | .authPubkey user pubkey signatureState =>
    (handler.onAuthPublicKey (user.getD []) pubkey (publicKeyState signatureState) state).1 =
      .returns .success ∧ signatureState = .valid
  | .authGssapiMic user principal =>
    (handler.onAuthGssapiMic (user.getD []) (principal.getD []) state).1 = .returns .success

theorem trampoline_handler (handler : SessionHandler σ) (method : StateM σ HandlerOutcome)
    (user : Option Bytes) (finalize : Bool) (reports : Option String) (state : σ)
    (login other : Login) :
    (trampoline handler method user finalize reports { handler := state, login }).2.handler =
      (trampoline handler method user finalize reports
        { handler := state, login := other }).2.handler := by
  have hcall : ∀ login : Login, callHandler method { handler := state, login } =
      ((method state).1, { handler := (method state).2, login }) := fun _ ↦ rfl
  rw [trampoline, bind_of_eq (hcall login), bind_of_eq (hcall other)]
  cases (method state).1 with
  | returns result => cases result <;> cases finalize <;> rfl
  | throwsException what => cases reports <;> rfl
  | throwsOther => rfl

/-- The handler does not look at the record. -/
theorem authCallback_handler (handler : SessionHandler σ) (callback : AuthCallback) (state : σ)
    (login other : Login) :
    (authCallback handler callback { handler := state, login }).2.handler =
      (authCallback handler callback { handler := state, login := other }).2.handler := by
  cases callback <;> exact trampoline_handler _ _ _ _ _ _ _ _

theorem login_of_trampoline {handler : SessionHandler σ} {callback : AuthCallback}
    {method : StateM σ HandlerOutcome} {user : Option Bytes} {finalize : Bool}
    {reports : Option String} {bridge : Bridge σ}
    (hcallback : authCallback handler callback = trampoline handler method user finalize reports)
    (huser : callback.user = user.getD [])
    (hlogsIn : LogsIn handler bridge.handler callback ↔
      (method bridge.handler).1 = .returns .success ∧ finalize = true) :
    (LogsIn handler bridge.handler callback →
      (authCallback handler callback bridge).2.login =
        { authenticated := true, user := callback.user }) ∧
    (¬ LogsIn handler bridge.handler callback →
      (authCallback handler callback bridge).2.login = bridge.login) := by
  have hlogin := (trampoline_spec handler method user finalize reports bridge).2
  rw [hcallback, hlogin, huser, hlogsIn]
  exact ⟨fun h ↦ if_pos h, fun h ↦ if_neg h⟩

/-- A callback records the login, if it is one, and nothing else. -/
theorem authCallback_login (handler : SessionHandler σ) (callback : AuthCallback)
    (bridge : Bridge σ) :
    (LogsIn handler bridge.handler callback →
      (authCallback handler callback bridge).2.login =
        { authenticated := true, user := callback.user }) ∧
    (¬ LogsIn handler bridge.handler callback →
      (authCallback handler callback bridge).2.login = bridge.login) := by
  cases callback with
  | authNone user => exact login_of_trampoline rfl rfl (and_iff_left rfl).symm
  | authPassword user password => exact login_of_trampoline rfl rfl (and_iff_left rfl).symm
  | authGssapiMic user principal => exact login_of_trampoline rfl rfl (and_iff_left rfl).symm
  | authPubkey user pubkey signatureState =>
    refine login_of_trampoline rfl rfl (and_congr_right fun _ ↦ ?_)
    cases signatureState <;> decide

/-! ### Runs with and without moves -/

/-- The same event in the run without any moves. -/
def unmovedStep (handler : SessionHandler σ) (event : SessionEvent) : StateM (Bridge σ) Unit :=
  event.callback.elim (pure ()) (authStep handler)

/-- The owner says what the object would say that was never moved, and the handler is in
the same state. -/
def SameRecord (sessions : Sessions σ) (bridge : Bridge σ) : Prop :=
  sessions.handler = bridge.handler ∧ sessions.login = bridge.login

/-- A login comes while the bridge has the address of the owner, or is one the owner has on
record already; and the session is not moved onto itself, unless that leaves its user. -/
def KeepsRecord (handler : SessionHandler σ) (sessions : Sessions σ) : SessionEvent → Prop
  | .auth callback => LogsIn handler sessions.handler callback →
    sessions.owner = sessions.installedOn ∨
      sessions.login = { authenticated := true, user := callback.user }
  | .move target leftUser => target = sessions.owner → leftUser = sessions.login.user

theorem sameRecord_auth (handler : SessionHandler σ) (callback : AuthCallback)
    {sessions : Sessions σ} {bridge : Bridge σ} (h : SameRecord sessions bridge) :
    SameRecord (sessions.auth handler callback) (authCallback handler callback bridge).2 ↔
      KeepsRecord handler sessions (.auth callback) := by
  rcases bridge with ⟨state, login⟩
  obtain ⟨rfl, rfl⟩ : sessions.handler = state ∧ sessions.login = login := h
  have hhandler : (sessions.auth handler callback).handler = (authCallback handler callback
      { handler := sessions.handler, login := sessions.login }).2.handler :=
    authCallback_handler handler callback sessions.handler _ _
  have hlogin : (sessions.auth handler callback).login =
      if sessions.owner = sessions.installedOn then (authCallback handler callback
        { handler := sessions.handler, login := sessions.vars sessions.installedOn }).2.login
      else sessions.login :=
    Function.update_apply _ _ _ _
  rw [SameRecord, and_iff_right hhandler, hlogin, KeepsRecord]
  obtain ⟨hrecords, hleaves⟩ := authCallback_login handler callback
    { handler := sessions.handler, login := sessions.vars sessions.installedOn }
  obtain ⟨hrecordsOwner, hleavesOwner⟩ := authCallback_login handler callback
    { handler := sessions.handler, login := sessions.login }
  by_cases hlogsIn : LogsIn handler sessions.handler callback
  · rw [hrecords hlogsIn, hrecordsOwner hlogsIn, imp_iff_right hlogsIn]
    by_cases howner : sessions.owner = sessions.installedOn
    · rw [if_pos howner]
      exact iff_of_true rfl (.inl howner)
    · rw [if_neg howner, or_iff_right howner]
  · rw [hleaves hlogsIn, hleavesOwner hlogsIn]
    refine iff_of_true ?_ fun h ↦ absurd h hlogsIn
    split_ifs with howner
    · rw [Sessions.login, howner]
    · rfl

theorem sameRecord_move (handler : SessionHandler σ) (target : ℕ) (leftUser : Bytes)
    {sessions : Sessions σ} {bridge : Bridge σ} (h : SameRecord sessions bridge) :
    SameRecord (sessions.move target leftUser) bridge ↔
      KeepsRecord handler sessions (.move target leftUser) := by
  have hhandler : (sessions.move target leftUser).handler = bridge.handler := h.1
  rw [SameRecord, and_iff_right hhandler, ← h.2, KeepsRecord]
  by_cases hself : target = sessions.owner
  · have hlogin : (sessions.move target leftUser).login =
        { sessions.login with user := leftUser } := by
      show Function.update _ sessions.owner _ target = _
      rw [hself, Function.update_self]
      rfl
    rw [hlogin, imp_iff_right hself]
    exact ⟨fun heq ↦ congrArg Login.user heq, fun hleft ↦ by rw [hleft]⟩
  · have hlogin : (sessions.move target leftUser).login = sessions.login := by
      show Function.update _ sessions.owner _ target = _
      rw [Function.update_of_ne hself, Function.update_self]
      rfl
    exact iff_of_true hlogin fun h ↦ absurd h hself

/-- One event keeps the record of the owner exactly if it meets the condition. -/
theorem sameRecord_step (handler : SessionHandler σ) (event : SessionEvent)
    (sessions : Sessions σ) (bridge : Bridge σ) (h : SameRecord sessions bridge) :
    SameRecord (sessionStep handler event sessions).2 (unmovedStep handler event bridge).2 ↔
      KeepsRecord handler sessions event := by
  cases event with
  | auth callback => exact sameRecord_auth handler callback h
  | move target leftUser => exact sameRecord_move handler target leftUser h

/-- Whatever the moves, the handler goes through the same states. -/
theorem handler_step (handler : SessionHandler σ) (event : SessionEvent) (sessions : Sessions σ)
    (bridge : Bridge σ) (h : sessions.handler = bridge.handler) :
    (sessionStep handler event sessions).2.handler =
      (unmovedStep handler event bridge).2.handler := by
  cases event with
  | auth callback =>
    rcases bridge with ⟨state, login⟩
    obtain rfl : sessions.handler = state := h
    exact authCallback_handler handler callback sessions.handler _ _
  | move target leftUser => exact h

/-- A session on which a handler was installed, among other objects. -/
def Sessions.installed (state : σ) (vars : ℕ → Login) (installedOn : ℕ) : Sessions σ where
  handler := state
  vars := vars
  owner := installedOn
  installedOn := installedOn

/-- A session with a handler is moved about while clients log in: after every beginning of
the run the owner says what it would say without any moves, if and only if every event meets
the condition. -/
theorem moved_login_iff {σ : Type} (handler : SessionHandler σ) (state : σ) (vars : ℕ → Login)
    (installedOn : ℕ) (events : List SessionEvent) :
    (∀ served, served <+: events →
      (stateAfter (sessionStep handler) served (.installed state vars installedOn)).login =
        (stateAfter (authStep handler) (served.filterMap SessionEvent.callback)
          { handler := state, login := vars installedOn }).login) ↔
      Allowed (sessionStep handler) (KeepsRecord handler) events
        (.installed state vars installedOn) := by
  have hstart : SameRecord (.installed state vars installedOn)
      { handler := state, login := vars installedOn } := ⟨rfl, rfl⟩
  rw [← related_iff_allowed (sameRecord_step handler) hstart]
  refine forall₂_congr fun served _ ↦ ?_
  have hunmoved : stateAfter (unmovedStep handler) served
      { handler := state, login := vars installedOn } = _ :=
    stateAfter_filterMap SessionEvent.callback served _
  have hhandler := related_of_steps (handler_step handler) served hstart.1
  rw [hunmoved] at hhandler ⊢
  exact (and_iff_right hhandler).symm

/-- A session that is moved into another object, and then logged into. -/
def movedThenLogin : List SessionEvent :=
  [.move 1 [], .auth (.authPassword (some (ascii "testuser")) (some (ascii "testpass")))]

/-- The login is recorded in the object that was moved from. -/
theorem movedThenLogin_lost :
    (stateAfter (sessionStep oneKeyServer.sessionHandler) movedThenLogin
        (.installed () (fun _ ↦ {}) 0)).login = {} ∧
      (stateAfter (authStep oneKeyServer.sessionHandler)
        (movedThenLogin.filterMap SessionEvent.callback) { handler := () }).login =
          { authenticated := true, user := ascii "testuser" } ∧
      ¬ ∀ served, served <+: movedThenLogin →
        (stateAfter (sessionStep oneKeyServer.sessionHandler) served
            (.installed () (fun _ ↦ {}) 0)).login =
          (stateAfter (authStep oneKeyServer.sessionHandler)
            (served.filterMap SessionEvent.callback) { handler := () }).login := by
  have hmoved : (stateAfter (sessionStep oneKeyServer.sessionHandler) movedThenLogin
      (.installed () (fun _ ↦ {}) 0)).login = {} := by decide +kernel
  have hunmoved : (stateAfter (authStep oneKeyServer.sessionHandler)
      (movedThenLogin.filterMap SessionEvent.callback) { handler := () }).login =
        { authenticated := true, user := ascii "testuser" } := by decide +kernel
  refine ⟨hmoved, hunmoved, fun h ↦ ?_⟩
  have hsame := h movedThenLogin List.prefix_rfl
  rw [hmoved, hunmoved] at hsame
  exact absurd hsame (by decide)

end LibSshpp.Server
