import LibSshpp.Foundation.Bytes
import LibSshpp.Foundation.Error

/-!
The client `Session` and the programs that use it. A session object refers to a
shared native session through its core, which moves leave behind empty; every
answer of libssh is an input of the operation that asks for it. `Program` steps
run over any number of session variables, so that constructions, moves and
reconnections may interleave freely.
-/

set_option autoImplicit false
set_option relaxedAutoImplicit false

namespace LibSshpp.Client

inductive StrictHostKeyChecking
  | off | on
  deriving DecidableEq, Repr

/-- The options the session operations below read. -/
structure SessionOptions where
  host : Bytes := []
  port : Option UInt16 := none
  strictHostKeyChecking : Option StrictHostKeyChecking := none
  deriving DecidableEq, Repr

inductive KnownHostsStatus
  | ok | changed | otherType | notFound | unknown | error
  deriving DecidableEq, Repr

def KnownHostsStatus.toNat : KnownHostsStatus → ℕ
  | .ok => 0 | .changed => 1 | .otherType => 2 | .notFound => 3 | .unknown => 4 | .error => 5

/-- libssh's `ssh_known_hosts_e`. -/
inductive NativeKnownHosts
  | error | notFound | unknown | ok | changed | other
  deriving DecidableEq, Repr

def knownHostsStatusFromNative : NativeKnownHosts → KnownHostsStatus
  | .ok => .ok
  | .changed => .changed
  | .other => .otherType
  | .notFound => .notFound
  | .unknown => .unknown
  | .error => .error

inductive Decision
  | accept | acceptAndRemember | reject
  deriving DecidableEq, Repr

/-- `HostKeyVerifier::Context`. -/
structure VerifierContext where
  host : Bytes
  port : UInt16
  status : KnownHostsStatus
  presentedKey : Bytes
  sha256 : Bytes

/-- A host key policy, shipped or supplied by the caller. -/
abbrev HostKeyVerifier := VerifierContext → Decision

inductive AuthStatus
  | success | denied | partialSuccess | infoRequired | again | error
  deriving DecidableEq, Repr

/-- A `Session` object: the identity of its core, if it has one, and its own
members. -/
structure Session where
  core : Option ℕ := none
  options : SessionOptions := {}
  authenticated : Bool := false
  deriving DecidableEq, Repr

/-- What libssh answers while a host key is verified. -/
structure HostKeyAnswers where
  knownServer : NativeKnownHosts
  publicKeyRc : ℤ
  publicKey : Option Bytes
  fingerprint : Result Bytes
  updateRc : ℤ
  lastError : SshError := {}

/-- What libssh answers while a channel, SFTP session or SCP transfer is opened:
whether the native object could be made, the result of initialising it, and the
errors left behind. -/
structure OpenAnswers where
  created : Bool
  rc : ℤ
  lastError : SshError := {}
  sftpStatus : ℤ := 0

inductive Opener
  | channel | sftp | scpRead | scpWrite
  deriving DecidableEq, Repr

/-- The error of a session operation on an object without a core. -/
def invalidHandle (operation : String) : ErrorInfo :=
  { code := .ssh .invalidHandle, operation }

/-! ### The operations -/

/-- `Session(const SessionOptions&)`: `fresh` is the core made from `ssh_new`'s
result, if it gave one. -/
def Session.new (options : SessionOptions) (fresh : Option ℕ) : Session :=
  { core := fresh, options }

def Session.tryConnect (session : Session) (rc : ℤ) (last : SshError) : Result Unit :=
  if session.core = none then .error (invalidHandle "Session::try_connect")
  else if rc ≠ sshOk then .error (makeErrorInfo last "ssh_connect" .connectionLost)
  else .ok ()

def Session.tryCheckKnownHost (session : Session) (answers : HostKeyAnswers) :
    Result KnownHostsStatus :=
  if session.core = none then .error (invalidHandle "Session::try_check_known_host")
  else .ok (knownHostsStatusFromNative answers.knownServer)

def Session.tryServerPublicKey (session : Session) (answers : HostKeyAnswers) : Result Bytes :=
  if session.core = none then .error (invalidHandle "Session::try_server_public_key")
  else match answers.publicKey with
    | none => .error (makeErrorInfo answers.lastError "ssh_get_server_publickey" .hostKeyUnknown)
    | some key =>
      if answers.publicKeyRc ≠ sshOk then
        .error (makeErrorInfo answers.lastError "ssh_get_server_publickey" .hostKeyUnknown)
      else .ok key

def Session.tryUpdateKnownHosts (session : Session) (answers : HostKeyAnswers) : Result Unit :=
  if session.core = none then .error (invalidHandle "Session::try_update_known_hosts")
  else if answers.updateRc ≠ sshOk then
    .error (makeErrorInfo answers.lastError "ssh_session_update_known_hosts" .knownHostsIoError)
  else .ok ()

def Session.tryVerifyHostKey (session : Session) (verifier : HostKeyVerifier)
    (answers : HostKeyAnswers) : Result Unit :=
  if session.core = none then .error (invalidHandle "Session::try_verify_host_key")
  else do
    let status ← session.tryCheckKnownHost answers
    let key ← session.tryServerPublicKey answers
    let sha256 ← answers.fingerprint
    let context : VerifierContext :=
      { host := session.options.host, port := session.options.port.getD 22, status
        presentedKey := key, sha256 }
    match verifier context with
    | .reject => .error {
        code := .ssh .hostKeyRejected
        message := "host key rejected by policy (status=" ++ toString status.toNat ++ ")"
        operation := "Session::verify_host_key" }
    | .acceptAndRemember => session.tryUpdateKnownHosts answers
    | .accept => .ok ()

/-- `try_authenticate` with the outcome of the authenticator's attempt. -/
def Session.tryAuthenticate (session : Session) (attempt : Result AuthStatus) :
    Result AuthStatus × Session :=
  if session.core = none then (.error (invalidHandle "Session::try_authenticate"), session)
  else match attempt with
    | .ok .success => (.ok .success, { session with authenticated := true })
    | outcome => (outcome, session)

/-- `try_open_channel`, with `Channel::try_open_session`. -/
def Session.tryOpenChannel (session : Session) (answers : OpenAnswers) : Result Unit :=
  if session.core = none then .error (invalidHandle "Session::try_open_channel")
  else if answers.created = false then
    .error (makeErrorInfo answers.lastError "ssh_channel_new" .channelOpenFailed)
  else if answers.rc ≠ sshOk then
    .error (makeErrorInfo answers.lastError "ssh_channel_open_session" .channelOpenFailed)
  else .ok ()

/-- `try_open_sftp`, with `Sftp::try_init`. -/
def Session.tryOpenSftp (session : Session) (answers : OpenAnswers) : Result Unit :=
  if session.core = none then .error (invalidHandle "Session::try_open_sftp")
  else if answers.created = false then
    .error { code := .ssh .sftpUnavailable, operation := "Sftp::try_init" }
  else if answers.rc ≠ sshOk then
    .error (makeSftpErrorInfo answers.sftpStatus answers.lastError "sftp_init")
  else .ok ()

/-- The SCP openers, which differ in the operations they name: `try_open_scp_read`
with `Reader::try_init`, `try_open_scp_write` with `Writer::try_init`. -/
def Session.tryOpenScp (session : Session) (opener init : String) (answers : OpenAnswers) :
    Result Unit :=
  if session.core = none then .error (invalidHandle opener)
  else if answers.created = false then .error { code := .ssh .scpError, operation := init }
  else if answers.rc ≠ sshOk then
    .error (makeErrorInfo answers.lastError "ssh_scp_init" .scpError)
  else .ok ()

def Session.tryOpenScpRead (session : Session) (answers : OpenAnswers) : Result Unit :=
  session.tryOpenScp "Session::try_open_scp_read" "Reader::try_init" answers

def Session.tryOpenScpWrite (session : Session) (answers : OpenAnswers) : Result Unit :=
  session.tryOpenScp "Session::try_open_scp_write" "Writer::try_init" answers

def Session.tryOpen (session : Session) : Opener → OpenAnswers → Result Unit
  | .channel => session.tryOpenChannel
  | .sftp => session.tryOpenSftp
  | .scpRead => session.tryOpenScpRead
  | .scpWrite => session.tryOpenScpWrite

/-- The object a moved-from session is left as: the core and the strings of the
options are gone, the plain members keep their values. -/
def Session.movedFrom (session : Session) : Session :=
  { session with core := none, options := { session.options with host := [] } }

/-! ### Programs over session variables -/

/-- One statement of a client program, on numbered session variables, with the
answers libssh gives to it. -/
inductive Operation
  | construct (var : ℕ) (options : SessionOptions) (created : Bool)
  | connect (var : ℕ) (rc : ℤ) (last : SshError)
  | verifyHostKey (var : ℕ) (verifier : HostKeyVerifier) (answers : HostKeyAnswers)
  | authenticate (var : ℕ) (attempt : Result AuthStatus)
  | disconnect (var : ℕ)
  | move (target source : ℕ)
  | open_ (var : ℕ) (opener : Opener) (answers : OpenAnswers)

/-- The session variables and the number of cores made so far. -/
structure Program where
  vars : ℕ → Session := fun _ ↦ {}
  cores : ℕ := 0

/-- The effect of an operation on the session objects, and whether it reported
success. `disconnect` acts on the native session only. -/
def Program.step (program : Program) : Operation → Result Unit × Program
  | .construct var options created =>
    let fresh := if created then some program.cores else none
    (.ok (), {
      vars := Function.update program.vars var (Session.new options fresh)
      cores := program.cores + 1 })
  | .connect var rc last => ((program.vars var).tryConnect rc last, program)
  | .verifyHostKey var verifier answers =>
    ((program.vars var).tryVerifyHostKey verifier answers, program)
  | .authenticate var attempt =>
    let (outcome, session) := (program.vars var).tryAuthenticate attempt
    (outcome.map fun _ ↦ (), { program with vars := Function.update program.vars var session })
  | .disconnect _ => (.ok (), program)
  | .move target source =>
    let vars := Function.update program.vars source (program.vars source).movedFrom
    (.ok (), { program with vars := Function.update vars target (program.vars source) })
  | .open_ var opener answers => ((program.vars var).tryOpen opener answers, program)

end LibSshpp.Client
