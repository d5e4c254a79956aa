import LibSshpp.Client.Session
import Mathlib.Logic.Basic

/-!
Host key verification as a gate in front of channels. The documentation makes
`verify_host_key` a required step: without it, opening a channel, an SFTP session
or an SCP transfer fails with `host_key_rejected` unless strict checking is off.
The openers consult no verification state, so they keep this exactly on the calls
that need no gate.
-/

set_option autoImplicit false
set_option relaxedAutoImplicit false

namespace LibSshpp.Client

/-- The cores whose current connection has a verified host key, after an
operation: a successful verification adds the core, a new connection and a
disconnection remove it. -/
def observe (program : Program) (verified : ℕ → Bool) (operation : Operation) : ℕ → Bool :=
  let mark (var : ℕ) (value : Bool) : ℕ → Bool :=
    match (program.vars var).core with
    | some core => Function.update verified core value
    | none => verified
  match operation with
  | .construct _ _ _ => Function.update verified program.cores false
  | .connect var rc last =>
    match (program.vars var).tryConnect rc last with
    | .ok () => mark var false
    | .error _ => verified
  | .verifyHostKey var verifier answers =>
    match (program.vars var).tryVerifyHostKey verifier answers with
    | .ok () => mark var true
    | .error _ => verified
  | .disconnect var => mark var false
  | _ => verified

/-- The session may open channels: its current connection is verified, or strict
host key checking is switched off. -/
def Permitted (verified : ℕ → Bool) (session : Session) : Prop :=
  (∃ core, session.core = some core ∧ verified core = true) ∨
    session.options.strictHostKeyChecking = some .off

/-- An opener keeps the gate: it succeeds only on a permitted session, and
refuses any other with `host_key_rejected`. -/
def KeepsGate (program : Program) (verified : ℕ → Bool) : Operation → Prop
  | .open_ var opener answers =>
    ((program.vars var).tryOpen opener answers = .ok () → Permitted verified (program.vars var)) ∧
      (¬ Permitted verified (program.vars var) →
        ∃ info, (program.vars var).tryOpen opener answers = .error info ∧
          info.code = .ssh .hostKeyRejected)
  | _ => True

/-- The client calls an opener only on a permitted session. -/
def OpensPermitted (program : Program) (verified : ℕ → Bool) : Operation → Prop
  | .open_ var _ _ => Permitted verified (program.vars var)
  | _ => True

/-- A property of single operations holds at every point of a run. -/
def Along (property : Program → (ℕ → Bool) → Operation → Prop) :
    Program → (ℕ → Bool) → List Operation → Prop
  | _, _, [] => True
  | program, verified, operation :: later =>
    property program verified operation ∧
      Along property (program.step operation).2 (observe program verified operation) later

theorem along_congr {property other : Program → (ℕ → Bool) → Operation → Prop}
    (h : ∀ program verified operation,
      property program verified operation ↔ other program verified operation)
    (operations : List Operation) : ∀ (program : Program) (verified : ℕ → Bool),
      Along property program verified operations ↔ Along other program verified operations := by
  induction operations with
  | nil => exact fun _ _ ↦ Iff.rfl
  | cons operation later ih =>
    intro program verified
    exact and_congr (h program verified operation) (ih _ _)

/-! ### No opener reports a rejected host key -/

theorem makeErrorInfo_code_ne_hostKeyRejected (last : SshError) (operation : String)
    {fallback : Errc} (h : fallback ≠ .hostKeyRejected) :
    (makeErrorInfo last operation fallback).code ≠ .ssh .hostKeyRejected := by
  intro hcode
  have hmem := makeErrorInfo_code last operation fallback
  rw [hcode] at hmem
  simp [h.symm] at hmem

theorem tryOpenScp_error_code (session : Session) (opener init : String) (answers : OpenAnswers)
    {info : ErrorInfo} (h : session.tryOpenScp opener init answers = .error info) :
    info.code ≠ .ssh .hostKeyRejected := by
  unfold Session.tryOpenScp at h
  split_ifs at h <;> obtain rfl := Except.error.inj h
  · exact fun hcode ↦ nomatch hcode
  · exact fun hcode ↦ nomatch hcode
  · exact makeErrorInfo_code_ne_hostKeyRejected _ _ (by decide)

theorem tryOpen_error_code (session : Session) (opener : Opener) (answers : OpenAnswers)
    {info : ErrorInfo} (h : session.tryOpen opener answers = .error info) :
    info.code ≠ .ssh .hostKeyRejected := by
  cases opener with
  | channel =>
    simp only [Session.tryOpen, Session.tryOpenChannel] at h
    split_ifs at h <;> obtain rfl := Except.error.inj h
    · exact fun hcode ↦ nomatch hcode
    · exact makeErrorInfo_code_ne_hostKeyRejected _ _ (by decide)
    · exact makeErrorInfo_code_ne_hostKeyRejected _ _ (by decide)
  | sftp =>
    simp only [Session.tryOpen, Session.tryOpenSftp] at h
    split_ifs at h <;> obtain rfl := Except.error.inj h
    · exact fun hcode ↦ nomatch hcode
    · exact fun hcode ↦ nomatch hcode
    · exact fun hcode ↦ nomatch hcode
  | scpRead => exact tryOpenScp_error_code session _ _ answers h
  | scpWrite => exact tryOpenScp_error_code session _ _ answers h

theorem keepsGate_iff_opensPermitted (program : Program) (verified : ℕ → Bool)
    (operation : Operation) :
    KeepsGate program verified operation ↔ OpensPermitted program verified operation := by
  cases operation with
  | open_ var opener answers =>
    refine ⟨fun hgate ↦ ?_, fun hpermitted ↦ ⟨fun _ ↦ hpermitted, fun h ↦ absurd hpermitted h⟩⟩
    by_contra hforbidden
    obtain ⟨info, herror, hcode⟩ := hgate.2 hforbidden
    exact tryOpen_error_code _ opener answers herror hcode
  | _ => exact Iff.rfl

/-- Over every run of a client program, whatever it interleaves and whatever
libssh answers, the openers keep the gate if and only if the program itself calls
them on permitted sessions only. -/
theorem openers_keep_gate_iff (operations : List Operation) :
    Along KeepsGate {} (fun _ ↦ false) operations ↔
      Along OpensPermitted {} (fun _ ↦ false) operations :=
  along_congr keepsGate_iff_opensPermitted operations {} _

/-- Connect, log in and open a channel without looking at the host key. -/
def unverifiedRun : List Operation :=
  [.construct 0 { host := ascii "prod-web" } true, .connect 0 0 {},
    .authenticate 0 (.ok .success), .open_ 0 .channel { created := true, rc := 0 }]

theorem unverifiedRun_opens_channel : ¬ Along KeepsGate {} (fun _ ↦ false) unverifiedRun := by
  rintro ⟨-, -, -, hgate, -⟩
  rcases hgate.1 rfl with ⟨core, hcore, hverified⟩ | hoff
  · obtain rfl : core = 0 := (Option.some.inj hcore).symm
    exact absurd hverified (by decide)
  · exact absurd hoff (by decide)

end LibSshpp.Client
