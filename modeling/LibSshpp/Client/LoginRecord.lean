import LibSshpp.Client.Session
import LibSshpp.Program.StateTriple

/-!
What a client session remembers of its login. `authenticated_` is set by three methods and cleared
by none, while the connection it speaks of belongs to the native session: it can end, be made
anew, or go over to another object.
-/

set_option autoImplicit false
set_option relaxedAutoImplicit false

namespace LibSshpp.Client

open LibSshpp.Program

/-- `AuthMethods`. -/
structure AuthMethods where
  none : Bool := false
  password : Bool := false
  publicKey : Bool := false
  hostBased : Bool := false
  interactive : Bool := false
  gssapiMic : Bool := false
  deriving DecidableEq, Repr

/-- `AuthMethods::from_bits`. -/
def AuthMethods.fromBits (bits : UInt32) : AuthMethods where
  none := bits &&& 0x01 != 0
  password := bits &&& 0x02 != 0
  publicKey := bits &&& 0x04 != 0
  hostBased := bits &&& 0x08 != 0
  interactive := bits &&& 0x10 != 0
  gssapiMic := bits &&& 0x20 != 0

/-- `SSH_AUTH_SUCCESS`. -/
def sshAuthSuccess : ℤ := 0

/-- A native session: whether it is connected, and whether an authentication has succeeded since
it was last connected. -/
structure NativeSession where
  connected : Bool := false
  loggedIn : Bool := false
  deriving DecidableEq, Repr

/-- An attempt of an authenticator: its outcome, and whether the session is connected afterwards.
It is if the attempt succeeded. -/
structure Attempt where
  outcome : Result AuthStatus
  connected : Bool := true

/-- A method at work on a session object and on the native session behind it. -/
abbrev SessionM := StateM (Session × NativeSession)

/-! ### The methods -/

/-- `try_connect`; a connection that could not be made may leave the earlier one. -/
def connectCall (rc : ℤ) (last : SshError) (connected : Bool) : SessionM (Result Unit) :=
  fun (session, native) ↦
    (session.tryConnect rc last, session,
      if session.core = none then native
      else if rc = sshOk then { connected := true, loggedIn := false }
      else { native with connected })

/-- `try_auth_methods`, with the answers of `ssh_userauth_none` and `ssh_userauth_list`. -/
def tryAuthMethods (rc : ℤ) (bits : UInt32) (connected : Bool) : SessionM (Result AuthMethods) :=
  fun (session, native) ↦
    if session.core = none then
      (.error (invalidHandle "Session::try_auth_methods"), session, native)
    else if rc = sshAuthSuccess then
      (.ok { none := true }, { session with authenticated := true },
        { connected := true, loggedIn := true })
    else (.ok (.fromBits bits), session, { native with connected })

/-- The native session after an attempt. -/
def NativeSession.after (native : NativeSession) (attempt : Attempt) : NativeSession :=
  match attempt.outcome with
  | .ok .success => { connected := true, loggedIn := true }
  | _ => { native with connected := attempt.connected }

/-- `try_authenticate` with one authenticator. -/
def authenticateCall (attempt : Attempt) : SessionM (Result AuthStatus) :=
  fun (session, native) ↦
    let (outcome, after) := session.tryAuthenticate attempt.outcome
    (outcome, after, if session.core = none then native else native.after attempt)

/-- `try_authenticate` with a list of them; `last` is the status of the attempt before. -/
def tryAuthenticateChain (last : AuthStatus) : List Attempt → SessionM (Result AuthStatus)
  | [] => pure (.ok last)
  | attempt :: chain => do
    match ← authenticateCall attempt with
    | .error info => pure (.error info)
    | .ok .success => pure (.ok .success)
    | .ok status => tryAuthenticateChain status chain

def disconnectCall : SessionM Unit := fun (session, native) ↦
  ((), session, if session.core = none then native else { native with connected := false })

/-! ### Programs -/

/-- The session objects of a program, the native sessions, and how many of these were made. -/
structure Clients where
  vars : ℕ → Session := fun _ ↦ {}
  natives : ℕ → NativeSession := fun _ ↦ {}
  cores : ℕ := 0

/-- A method called on one of the objects. -/
def onSession {α : Type} (var : ℕ) (method : SessionM α) : StateM Clients α := fun clients ↦
  let session := clients.vars var
  match session.core with
  | none =>
    let after := method (session, {})
    (after.1, { clients with vars := Function.update clients.vars var after.2.1 })
  | some core =>
    let after := method (session, clients.natives core)
    (after.1, { clients with
      vars := Function.update clients.vars var after.2.1
      natives := Function.update clients.natives core after.2.2 })

/-- One statement of a program. -/
inductive SessionCall
  | construct (var : ℕ) (options : SessionOptions) (created : Bool)
  | connect (var : ℕ) (rc : ℤ) (last : SshError) (connected : Bool)
  | authMethods (var : ℕ) (rc : ℤ) (bits : UInt32) (connected : Bool)
  | authenticate (var : ℕ) (attempt : Attempt)
  | authenticateChain (var : ℕ) (chain : List Attempt)
  | disconnect (var : ℕ)
  | move (target source : ℕ)

def construct (var : ℕ) (options : SessionOptions) (created : Bool) : StateM Clients Unit :=
  fun clients ↦
    ((), { clients with
      vars := Function.update clients.vars var
        (Session.new options (if created then some clients.cores else none))
      cores := clients.cores + 1 })

/-- The move constructor and the move assignment. -/
def moveSession (target source : ℕ) : StateM Clients Unit := fun clients ↦
  let vars := Function.update clients.vars source (clients.vars source).movedFrom
  ((), { clients with vars := Function.update vars target (clients.vars source) })

def clientStep : SessionCall → StateM Clients Unit
  | .construct var options created => construct var options created
  | .connect var rc last connected => discard (onSession var (connectCall rc last connected))
  | .authMethods var rc bits connected => discard (onSession var (tryAuthMethods rc bits connected))
  | .authenticate var attempt => discard (onSession var (authenticateCall attempt))
  | .authenticateChain var chain => discard (onSession var (tryAuthenticateChain .denied chain))
  | .disconnect var => onSession var disconnectCall
  | .move target source => moveSession target source

/-! ### What the record says -/

/-- An object that says it is authenticated has a connected native session, in which an
authentication has succeeded since the connection was made. -/
def Truthful (clients : Clients) : Prop :=
  ∀ var, (clients.vars var).authenticated = true → ∃ core, (clients.vars var).core = some core ∧
    (clients.natives core).connected = true ∧ (clients.natives core).loggedIn = true

/-- The last of the attempts that is made: a success or an error ends them. -/
def lastMade : List Attempt → Option Attempt
  | [] => none
  | attempt :: chain =>
    match attempt.outcome with
    | .error _ => some attempt
    | .ok .success => some attempt
    | .ok _ => (lastMade chain).or (some attempt)

/-- The attempt succeeds, or leaves the session connected. -/
def Attempt.KeepsConnection (attempt : Attempt) : Prop :=
  attempt.outcome = .ok .success ∨ attempt.connected = true

/-- An object that says it is authenticated is not disconnected, not connected anew, not moved to
another object, and does not lose its connection. -/
def RecordSafe (clients : Clients) : SessionCall → Prop
  | .construct _ _ _ => True
  | .connect var rc _ connected =>
    (clients.vars var).authenticated = true → rc ≠ sshOk ∧ connected = true
  | .authMethods var rc _ connected =>
    (clients.vars var).authenticated = true → rc = sshAuthSuccess ∨ connected = true
  | .authenticate var attempt =>
    (clients.vars var).authenticated = true → attempt.KeepsConnection
  | .authenticateChain var chain =>
    (clients.vars var).authenticated = true → ∀ attempt ∈ lastMade chain, attempt.KeepsConnection
  | .disconnect var => (clients.vars var).authenticated = false
  | .move target source => target ≠ source → (clients.vars source).authenticated = false

/-! ### The methods, one by one -/

/-- A method leaves the session object its native session, and leaves an object without one
alone. -/
structure Plain {α : Type} (method : SessionM α) : Prop where
  core : ∀ session native, (method (session, native)).2.1.core = session.core
  unowned : ∀ session native, session.core = none → (method (session, native)).2.1 = session

/-- What one object says about its own native session is true. -/
def Says (session : Session) (native : NativeSession) : Prop :=
  session.authenticated = true → native.connected = true ∧ native.loggedIn = true

section Methods

variable {session : Session} {native : NativeSession}

theorem plain_connectCall (rc : ℤ) (last : SshError) (connected : Bool) :
    Plain (connectCall rc last connected) :=
  ⟨fun _ _ ↦ rfl, fun _ _ _ ↦ rfl⟩

theorem plain_disconnectCall : Plain disconnectCall := ⟨fun _ _ ↦ rfl, fun _ _ _ ↦ rfl⟩

theorem plain_tryAuthMethods (rc : ℤ) (bits : UInt32) (connected : Bool) :
    Plain (tryAuthMethods rc bits connected) := by
  refine ⟨fun session native ↦ ?_, fun session native hcore ↦ ?_⟩
  · unfold tryAuthMethods
    dsimp only
    split_ifs <;> rfl
  · unfold tryAuthMethods
    dsimp only
    rw [if_pos hcore]

theorem plain_authenticateCall (attempt : Attempt) : Plain (authenticateCall attempt) := by
  refine ⟨fun session native ↦ ?_, fun session native hcore ↦ ?_⟩
  · change (session.tryAuthenticate attempt.outcome).2.core = session.core
    unfold Session.tryAuthenticate
    split_ifs
    · rfl
    · split <;> rfl
  · change (session.tryAuthenticate attempt.outcome).2 = session
    unfold Session.tryAuthenticate
    rw [if_pos hcore]

theorem authenticateCall_eq (attempt : Attempt) (hcore : session.core ≠ none) :
    authenticateCall attempt (session, native) = (attempt.outcome,
      if attempt.outcome = .ok .success then { session with authenticated := true } else session,
      native.after attempt) := by
  unfold authenticateCall Session.tryAuthenticate
  dsimp only
  rw [if_neg hcore, if_neg hcore]
  rcases attempt with ⟨info | status, connected⟩
  · rfl
  · cases status <;> rfl

/-- An attempt that does not succeed decides on the connection and on nothing else. -/
theorem after_of_ne {attempt : Attempt} (h : attempt.outcome ≠ .ok .success) :
    native.after attempt = { native with connected := attempt.connected } := by
  unfold NativeSession.after
  split
  · rename_i hsuccess
    exact absurd hsuccess h
  · rfl

theorem after_connected (attempt : Attempt) (connected : Bool) :
    NativeSession.after { native with connected } attempt = native.after attempt := by
  unfold NativeSession.after
  split <;> rfl

/-- A list of authenticators leaves what the last attempt leaves that is made. -/
theorem tryAuthenticateChain_state (last : AuthStatus) (chain : List Attempt)
    (hcore : session.core ≠ none) :
    (tryAuthenticateChain last chain (session, native)).2 =
      (lastMade chain).elim (session, native)
        fun attempt ↦ (authenticateCall attempt (session, native)).2 := by
  induction chain generalizing last native with
  | nil => rfl
  | cons attempt chain ih =>
    have hcall : authenticateCall attempt (session, native) = _ := authenticateCall_eq attempt hcore
    by_cases hgoesOn : ∃ status, attempt.outcome = .ok status ∧ status ≠ .success
    · obtain ⟨status, houtcome, hstatus⟩ := hgoesOn
      have hfails : attempt.outcome ≠ .ok .success := fun h ↦
        hstatus (Except.ok.inj (houtcome.symm.trans h))
      have hnext : (tryAuthenticateChain last (attempt :: chain) (session, native)).2 =
          (tryAuthenticateChain status chain
            (session, { native with connected := attempt.connected })).2 := by
        rw [tryAuthenticateChain, bind_of_eq hcall, if_neg hfails, after_of_ne hfails, houtcome]
        cases status <;> first | rfl | exact absurd rfl hstatus
      have hmade : lastMade (attempt :: chain) = (lastMade chain).or (some attempt) := by
        rw [lastMade, houtcome]
        cases status <;> first | rfl | exact absurd rfl hstatus
      rw [hnext, ih, hmade]
      cases lastMade chain with
      | none =>
        rw [Option.none_or, Option.elim_none, Option.elim_some, hcall, if_neg hfails,
          after_of_ne hfails]
      | some made =>
        rw [Option.some_or, Option.elim_some, Option.elim_some, authenticateCall_eq made hcore,
          authenticateCall_eq made hcore, after_connected]
    · have hends : (tryAuthenticateChain last (attempt :: chain) (session, native)).2 =
          (authenticateCall attempt (session, native)).2 ∧
            lastMade (attempt :: chain) = some attempt := by
        rw [tryAuthenticateChain, bind_of_eq hcall, hcall, lastMade]
        rcases houtcome : attempt.outcome with info | status
        · exact ⟨rfl, rfl⟩
        · cases status <;> first | exact ⟨rfl, rfl⟩ | exact absurd ⟨_, houtcome, nofun⟩ hgoesOn
      rw [hends.1, hends.2, Option.elim_some]

/-- An object without a native session gets nowhere with any authenticator. -/
theorem tryAuthenticateChain_unowned (last : AuthStatus) (chain : List Attempt)
    (hcore : session.core = none) :
    (tryAuthenticateChain last chain (session, native)).2 = (session, native) := by
  cases chain with
  | nil => rfl
  | cons attempt chain =>
    have hcall : authenticateCall attempt (session, native) =
        (.error (invalidHandle "Session::try_authenticate"), session, native) := by
      unfold authenticateCall Session.tryAuthenticate
      dsimp only
      rw [if_pos hcore, if_pos hcore]
    rw [tryAuthenticateChain, bind_of_eq hcall]
    rfl

theorem plain_tryAuthenticateChain (last : AuthStatus) (chain : List Attempt) :
    Plain (tryAuthenticateChain last chain) := by
  refine ⟨fun session native ↦ ?_, fun session native hcore ↦ ?_⟩
  · by_cases hcore : session.core = none
    · rw [tryAuthenticateChain_unowned last chain hcore]
    · rw [tryAuthenticateChain_state last chain hcore]
      cases lastMade chain with
      | none => rfl
      | some attempt => exact (plain_authenticateCall attempt).core session native
  · rw [tryAuthenticateChain_unowned last chain hcore]

/-! What a method leaves of a true record. -/

theorem says_connectCall (rc : ℤ) (last : SshError) (connected : Bool) (hcore : session.core ≠ none)
    (h : Says session native) :
    Says session (connectCall rc last connected (session, native)).2.2 ↔
      (session.authenticated = true → rc ≠ sshOk ∧ connected = true) := by
  refine forall_congr' fun hauthenticated ↦ ?_
  rw [connectCall, if_neg hcore]
  by_cases hrc : rc = sshOk
  · simp [hrc]
  · simp [hrc, (h hauthenticated).2]

theorem says_tryAuthMethods (rc : ℤ) (bits : UInt32) (connected : Bool)
    (hcore : session.core ≠ none) (h : Says session native) :
    Says (tryAuthMethods rc bits connected (session, native)).2.1
        (tryAuthMethods rc bits connected (session, native)).2.2 ↔
      (session.authenticated = true → rc = sshAuthSuccess ∨ connected = true) := by
  unfold tryAuthMethods
  dsimp only
  rw [if_neg hcore]
  by_cases hrc : rc = sshAuthSuccess
  · rw [if_pos hrc]
    exact iff_of_true (fun _ ↦ ⟨rfl, rfl⟩) fun _ ↦ .inl hrc
  · rw [if_neg hrc]
    refine forall_congr' fun hauthenticated ↦ ?_
    simp [hrc, (h hauthenticated).2]

theorem says_authenticateCall (attempt : Attempt) (hcore : session.core ≠ none)
    (h : Says session native) :
    Says (authenticateCall attempt (session, native)).2.1
        (authenticateCall attempt (session, native)).2.2 ↔
      (session.authenticated = true → attempt.KeepsConnection) := by
  rw [authenticateCall_eq attempt hcore]
  by_cases hsuccess : attempt.outcome = .ok .success
  · refine iff_of_true (fun _ ↦ ?_) fun _ ↦ .inl hsuccess
    rw [NativeSession.after, hsuccess]
    exact ⟨rfl, rfl⟩
  · rw [if_neg hsuccess, after_of_ne hsuccess]
    refine forall_congr' fun hauthenticated ↦ ?_
    simp [Attempt.KeepsConnection, hsuccess, (h hauthenticated).2]

theorem says_tryAuthenticateChain (last : AuthStatus) (chain : List Attempt)
    (hcore : session.core ≠ none) (h : Says session native) :
    Says (tryAuthenticateChain last chain (session, native)).2.1
        (tryAuthenticateChain last chain (session, native)).2.2 ↔
      (session.authenticated = true → ∀ attempt ∈ lastMade chain, attempt.KeepsConnection) := by
  rw [tryAuthenticateChain_state last chain hcore]
  cases lastMade chain with
  | none => exact iff_of_true h fun _ ↦ by simp
  | some attempt => simpa using says_authenticateCall attempt hcore h

theorem says_disconnectCall (hcore : session.core ≠ none) :
    Says session (disconnectCall (session, native)).2.2 ↔ session.authenticated = false := by
  rw [disconnectCall, if_neg hcore]
  cases hauthenticated : session.authenticated <;> simp [Says, hauthenticated]

end Methods

/-! ### The objects together -/

/-- No two objects have the same native session, and every native session was made. -/
structure Owned (clients : Clients) : Prop where
  unique : ∀ var other core, (clients.vars var).core = some core →
    (clients.vars other).core = some core → var = other
  made : ∀ var core, (clients.vars var).core = some core → core < clients.cores

section Objects

variable {clients : Clients}

theorem onSession_none {α : Type} {var : ℕ} {method : SessionM α} (hplain : Plain method)
    (hcore : (clients.vars var).core = none) : (onSession var method clients).2 = clients := by
  have hafter := hplain.unowned (clients.vars var) {} hcore
  unfold onSession
  simp only [hcore, hafter, Function.update_eq_self]

theorem onSession_some {α : Type} {var core : ℕ} (method : SessionM α)
    (hcore : (clients.vars var).core = some core) :
    (onSession var method clients).2 = { clients with
      vars := Function.update clients.vars var
        (method (clients.vars var, clients.natives core)).2.1
      natives := Function.update clients.natives core
        (method (clients.vars var, clients.natives core)).2.2 } := by
  unfold onSession
  simp only [hcore]

theorem core_onSession {α : Type} {var : ℕ} {method : SessionM α} (hplain : Plain method)
    (other : ℕ) :
    ((onSession var method clients).2.vars other).core = (clients.vars other).core := by
  rcases hcore : (clients.vars var).core with _ | core
  · rw [onSession_none hplain hcore]
  · rw [onSession_some method hcore]
    by_cases hother : other = var
    · subst hother
      exact (congrArg Session.core (Function.update_self _ _ _)).trans (hplain.core _ _)
    · exact congrArg Session.core (Function.update_of_ne hother _ _)

theorem owned_onSession {α : Type} {var : ℕ} {method : SessionM α} (hplain : Plain method)
    (h : Owned clients) : Owned (onSession var method clients).2 := by
  have hcores : (onSession var method clients).2.cores = clients.cores := by
    unfold onSession
    dsimp only
    split <;> rfl
  refine ⟨fun first second core hfirst hsecond ↦ ?_, fun other core hother ↦ ?_⟩
  · rw [core_onSession hplain] at hfirst hsecond
    exact h.unique first second core hfirst hsecond
  · rw [core_onSession hplain] at hother
    exact (h.made other core hother).trans_eq hcores.symm

/-- The records stay true exactly if the one of the object stays true that the method works on. -/
theorem truthful_onSession {α : Type} {var : ℕ} {method : SessionM α} (hplain : Plain method)
    (howned : Owned clients) (h : Truthful clients) :
    Truthful (onSession var method clients).2 ↔ ∀ core, (clients.vars var).core = some core →
      Says (method (clients.vars var, clients.natives core)).2.1
        (method (clients.vars var, clients.natives core)).2.2 := by
  rcases hcore : (clients.vars var).core with _ | core
  · rw [onSession_none hplain hcore]
    exact iff_of_true h nofun
  · have hafter := hplain.core (clients.vars var) (clients.natives core)
    rw [onSession_some method hcore]
    constructor
    · intro htruthful other hother hauthenticated
      obtain rfl := Option.some.inj hother
      obtain ⟨found, hfound, hnative⟩ := htruthful var (by simpa using hauthenticated)
      simp only [Function.update_self, hafter, hcore, Option.some.injEq] at hfound
      subst hfound
      simpa using hnative
    · intro htrue other hauthenticated
      by_cases hother : other = var
      · subst hother
        simp only [Function.update_self] at hauthenticated ⊢
        exact ⟨core, hafter.trans hcore, by simpa using htrue core rfl hauthenticated⟩
      · simp only [Function.update_of_ne hother] at hauthenticated ⊢
        obtain ⟨found, hfound, hnative⟩ := h other hauthenticated
        have hne : found ≠ core := fun heq ↦
          hother (howned.unique other var core (heq ▸ hfound) hcore)
        refine ⟨found, hfound, ?_⟩
        rw [Function.update_of_ne hne]
        exact hnative

/-- A condition on an object that says it is authenticated is one on its native session. -/
theorem forall_core_iff (h : Truthful clients) (var : ℕ) (condition : Prop) :
    (∀ core, (clients.vars var).core = some core →
      ((clients.vars var).authenticated = true → condition)) ↔
      ((clients.vars var).authenticated = true → condition) := by
  constructor
  · intro hcondition hauthenticated
    obtain ⟨core, hcore, -⟩ := h var hauthenticated
    exact hcondition core hcore hauthenticated
  · exact fun hcondition _ _ ↦ hcondition

/-- A method that keeps a true record true under a condition keeps all of them true under it,
or where the object does not say that it is authenticated. -/
theorem truthful_method {α : Type} {var : ℕ} {method : SessionM α} {condition : Prop}
    (hplain : Plain method) (howned : Owned clients) (h : Truthful clients)
    (hkeeps : ∀ {session : Session} {native : NativeSession}, session.core ≠ none →
      Says session native →
        (Says (method (session, native)).2.1 (method (session, native)).2.2 ↔
          (session.authenticated = true → condition))) :
    Truthful (onSession var method clients).2 ↔
      ((clients.vars var).authenticated = true → condition) := by
  rw [truthful_onSession hplain howned h, ← forall_core_iff h]
  refine forall₂_congr fun core hcore ↦ hkeeps ?_ ?_
  · rw [hcore]
    exact Option.some_ne_none core
  · intro hauthenticated
    obtain ⟨found, hfound, hnative⟩ := h var hauthenticated
    obtain rfl := Option.some.inj (hcore.symm.trans hfound)
    exact hnative

theorem truthful_construct (h : Truthful clients) (var : ℕ) (options : SessionOptions)
    (created : Bool) : Truthful (construct var options created clients).2 := by
  intro other hauthenticated
  by_cases hother : other = var
  · subst hother
    simp [construct, Session.new] at hauthenticated
  · have hsame : (construct var options created clients).2.vars other = clients.vars other :=
      Function.update_of_ne hother _ _
    rw [hsame] at hauthenticated ⊢
    exact h other hauthenticated

theorem vars_moveSession (target source other : ℕ) :
    (moveSession target source clients).2.vars other =
      if other = target then clients.vars source
      else if other = source then (clients.vars source).movedFrom
      else clients.vars other := by
  simp only [moveSession, Function.update_apply]

/-- A moved-from object says what it said before, and has nothing to show for it. -/
theorem truthful_moveSession (h : Truthful clients) (target source : ℕ) :
    Truthful (moveSession target source clients).2 ↔
      (target ≠ source → (clients.vars source).authenticated = false) := by
  constructor
  · intro htruthful hne
    by_contra hauthenticated
    have hsource : (moveSession target source clients).2.vars source =
        (clients.vars source).movedFrom := by
      rw [vars_moveSession, if_neg hne.symm, if_pos rfl]
    obtain ⟨core, hcore, -⟩ := htruthful source
      (by rw [hsource]; simpa [Session.movedFrom] using hauthenticated)
    rw [hsource] at hcore
    exact nomatch hcore
  · intro hsafe other hauthenticated
    change ∃ core, ((moveSession target source clients).2.vars other).core = some core ∧
      (clients.natives core).connected = true ∧ (clients.natives core).loggedIn = true
    rw [vars_moveSession] at hauthenticated ⊢
    split_ifs at hauthenticated ⊢ with htarget hsource
    · exact h source hauthenticated
    · have hne : target ≠ source := fun heq ↦ htarget (hsource.trans heq.symm)
      exact absurd ((hsafe hne).symm.trans hauthenticated) Bool.false_ne_true
    · exact h other hauthenticated

theorem owned_construct (h : Owned clients) (var : ℕ) (options : SessionOptions)
    (created : Bool) : Owned (construct var options created clients).2 := by
  have hcore : ∀ other core,
      ((construct var options created clients).2.vars other).core = some core →
        other = var ∧ core = clients.cores ∨ (clients.vars other).core = some core := by
    intro other core hother
    by_cases hvar : other = var
    · subst hvar
      have hfresh : (if created then some clients.cores else none) = some core := by
        simpa [construct, Session.new] using hother
      split_ifs at hfresh with hcreated
      exact .inl ⟨rfl, (Option.some.inj hfresh).symm⟩
    · rw [construct] at hother
      exact .inr (by simpa [hvar] using hother)
  refine ⟨fun first second core hfirst hsecond ↦ ?_, fun other core hother ↦ ?_⟩
  · rcases hcore first core hfirst with ⟨rfl, rfl⟩ | hold
    · rcases hcore second _ hsecond with ⟨rfl, -⟩ | hold
      · rfl
      · exact absurd (h.made second _ hold) (lt_irrefl _)
    · rcases hcore second core hsecond with ⟨rfl, rfl⟩ | hold'
      · exact absurd (h.made first _ hold) (lt_irrefl _)
      · exact h.unique first second core hold hold'
  · rcases hcore other core hother with ⟨-, rfl⟩ | hold
    · exact Nat.lt_add_one clients.cores
    · exact (h.made other core hold).trans (Nat.lt_add_one clients.cores)

theorem owned_moveSession (h : Owned clients) (target source : ℕ) :
    Owned (moveSession target source clients).2 := by
  have hcore : ∀ other core, ((moveSession target source clients).2.vars other).core = some core →
      other = target ∧ (clients.vars source).core = some core ∨
        other ≠ source ∧ (clients.vars other).core = some core := by
    intro other core hother
    rw [vars_moveSession] at hother
    split_ifs at hother with htarget hsource
    · exact .inl ⟨htarget, hother⟩
    · exact nomatch hother
    · exact .inr ⟨hsource, hother⟩
  refine ⟨fun first second core hfirst hsecond ↦ ?_, fun other core hother ↦ ?_⟩
  · rcases hcore first core hfirst with ⟨rfl, hold⟩ | ⟨hne, hold⟩ <;>
      rcases hcore second core hsecond with ⟨rfl, hold'⟩ | ⟨hne', hold'⟩
    · rfl
    · exact absurd (h.unique second source core hold' hold) hne'
    · exact absurd (h.unique first source core hold hold') hne
    · exact h.unique first second core hold hold'
  · rcases hcore other core hother with ⟨-, hold⟩ | ⟨-, hold⟩
    · exact h.made source core hold
    · exact h.made other core hold

theorem owned_clientStep (call : SessionCall) (h : Owned clients) :
    Owned (clientStep call clients).2 := by
  cases call with
  | construct var options created => exact owned_construct h var options created
  | connect var rc last connected =>
    exact owned_onSession (plain_connectCall rc last connected) h
  | authMethods var rc bits connected =>
    exact owned_onSession (plain_tryAuthMethods rc bits connected) h
  | authenticate var attempt => exact owned_onSession (plain_authenticateCall attempt) h
  | authenticateChain var chain =>
    exact owned_onSession (plain_tryAuthenticateChain .denied chain) h
  | disconnect var => exact owned_onSession plain_disconnectCall h
  | move target source => exact owned_moveSession h target source

/-- One statement keeps the records true exactly if it is safe. -/
theorem truthful_clientStep (call : SessionCall) (howned : Owned clients) (h : Truthful clients) :
    Truthful (clientStep call clients).2 ↔ RecordSafe clients call := by
  cases call with
  | construct var options created =>
    exact iff_of_true (truthful_construct h var options created) trivial
  | connect var rc last connected =>
    exact truthful_method (plain_connectCall rc last connected) howned h fun hcore ↦
      says_connectCall rc last connected hcore
  | authMethods var rc bits connected =>
    exact truthful_method (plain_tryAuthMethods rc bits connected) howned h fun hcore ↦
      says_tryAuthMethods rc bits connected hcore
  | authenticate var attempt =>
    exact truthful_method (plain_authenticateCall attempt) howned h fun hcore ↦
      says_authenticateCall attempt hcore
  | authenticateChain var chain =>
    exact truthful_method (plain_tryAuthenticateChain .denied chain) howned h fun hcore ↦
      says_tryAuthenticateChain .denied chain hcore
  | disconnect var =>
    have hdown : Truthful (onSession var disconnectCall clients).2 ↔
        ((clients.vars var).authenticated = true → False) :=
      truthful_method plain_disconnectCall howned h fun hcore _ ↦
        (says_disconnectCall hcore).trans Bool.eq_false_iff
    exact hdown.trans Bool.eq_false_iff.symm
  | move target source => exact truthful_moveSession h target source

end Objects

/-- In every program the objects say that they are authenticated only while that is so, if and
only if every statement is safe. -/
theorem truthful_run_iff (calls : List SessionCall) :
    (∀ served, served <+: calls → Truthful (stateAfter clientStep served {})) ↔
      Allowed clientStep RecordSafe calls {} := by
  have howned : ∀ served, Owned (stateAfter clientStep served {}) := fun served ↦
    invariant_of_keeps (fun call _ h ↦ owned_clientStep call h) served
      ⟨fun _ _ _ h ↦ (nomatch h), fun _ _ h ↦ (nomatch h)⟩
  constructor
  · intro htruthful
    have hstep : ∀ call clients, Owned clients ∧ Truthful clients →
        Owned (clientStep call clients).2 ∧ Truthful (clientStep call clients).2 →
          RecordSafe clients call := by
      intro call clients ⟨howned, hbefore⟩ ⟨_, hafter⟩
      exact (truthful_clientStep call howned hbefore).mp hafter
    exact allowed_of_invariant hstep fun served hserved ↦
      ⟨howned served, htruthful served hserved⟩
  · intro hallowed served hserved
    have hstep : ∀ call, Triple
        (fun clients ↦ (Owned clients ∧ Truthful clients) ∧ RecordSafe clients call)
        (clientStep call) fun _ clients ↦ Owned clients ∧ Truthful clients := by
      intro call clients ⟨⟨howned, htruthful⟩, hsafe⟩
      exact ⟨owned_clientStep call howned, (truthful_clientStep call howned htruthful).mpr hsafe⟩
    exact (invariant_of_allowed hstep hallowed ⟨howned [], nofun⟩ hserved).2

/-- A login, and a connection made anew, on which nobody has logged in. -/
def loggedInBefore : List SessionCall :=
  [.construct 0 { host := ascii "example.org" } true, .connect 0 sshOk {} true,
    .authenticate 0 { outcome := .ok .success }, .disconnect 0, .connect 0 sshOk {} true]

theorem loggedInBefore_authenticated :
    ((stateAfter clientStep loggedInBefore {}).vars 0).authenticated = true ∧
      ((stateAfter clientStep loggedInBefore {}).natives 0).loggedIn = false ∧
      ¬ ∀ served, served <+: loggedInBefore → Truthful (stateAfter clientStep served {}) := by
  refine ⟨by decide +kernel, by decide +kernel, fun htruthful ↦ ?_⟩
  obtain ⟨core, hcore, -, hlogin⟩ := htruthful loggedInBefore List.prefix_rfl 0 (by decide +kernel)
  have hfirst : ((stateAfter clientStep loggedInBefore {}).vars 0).core = some 0 := by
    decide +kernel
  obtain rfl := Option.some.inj (hfirst.symm.trans hcore)
  exact absurd hlogin (by decide +kernel)

end LibSshpp.Client
