import LibSshpp.Client.LoginRecord

/-!
The authenticators. An attempt makes calls on libssh and hears, one after the other, the answers of
a trace; it may also hold a dialogue with the handler of a keyboard-interactive login. On a
blocking session `SSH_AUTH_AGAIN` is not an answer but an invitation to repeat the call.
-/

set_option autoImplicit false
set_option relaxedAutoImplicit false

namespace LibSshpp.Client

/-! ### libssh's answers -/

def sshAuthDenied : ℤ := 1
def sshAuthPartial : ℤ := 2
def sshAuthInfo : ℤ := 3
def sshAuthAgain : ℤ := 4

/-- The functions of libssh that the authenticators call. -/
inductive AuthCall
  | userauthNone
  | userauthPassword (password : Bytes)
  | userauthPublickeyAuto (passphrase : Option Bytes)
  | userauthTryPublickey (key : Bytes)
  | userauthPublickey (key : Bytes)
  | userauthAgent
  | userauthKbdint
  deriving DecidableEq, Repr

structure Prompt where
  text : Bytes
  echo : Bool
  deriving DecidableEq, Repr

structure Challenge where
  name : Bytes
  instruction : Bytes
  prompts : List Prompt
  deriving DecidableEq, Repr

/-- What the `ssh_userauth_kbdint_get…` functions return, null pointers included. -/
structure NativeChallenge where
  name : Option Bytes := none
  instruction : Option Bytes := none
  prompts : List (Option Bytes × Bool) := []
  deriving DecidableEq, Repr

def NativeChallenge.read (native : NativeChallenge) : Challenge where
  name := native.name.getD []
  instruction := native.instruction.getD []
  prompts := native.prompts.map fun (text, echo) ↦ { text := text.getD [], echo }

/-- How libssh answers one call: the return code, the challenge it holds then, its last error, and
whether 30 seconds have passed since the call was first made. -/
structure Answer where
  rc : ℤ
  challenge : NativeChallenge := {}
  last : SshError := {}
  late : Bool := false
  deriving DecidableEq, Repr

/-- An error with the function that raised it, which `SSHPP_HERE` records. -/
structure LocatedError where
  info : ErrorInfo
  function : String
  deriving DecidableEq, Repr

abbrev Outcome := Except LocatedError AuthStatus

/-! ### Attempts -/

/-- What the handler of a keyboard-interactive login is shown and what is answered. -/
inductive DialogueEvent
  | challenge (challenge : Challenge)
  | answer (index : ℕ) (text : Bytes)
  deriving DecidableEq, Repr

/-- A call and its return code, and whether it was made in the loop of `auth_attempt`. -/
structure Asked where
  call : AuthCall
  rc : ℤ
  inLoop : Bool
  deriving DecidableEq, Repr

structure Talk where
  calls : List Asked := []
  dialogue : List DialogueEvent := []
  deriving DecidableEq, Repr

def Talk.asked (talk : Talk) (call : AuthCall) (rc : ℤ) (inLoop : Bool) : Talk :=
  { talk with calls := talk.calls ++ [{ call, rc, inLoop }] }

def Talk.shown (talk : Talk) (challenge : Challenge) : Talk :=
  { talk with dialogue := talk.dialogue ++ [.challenge challenge] }

/-- `ssh_userauth_kbdint_setanswer` for each of the answers. -/
def Talk.answered (talk : Talk) (answers : List Bytes) : Talk :=
  { talk with
    dialogue := talk.dialogue ++ answers.zipIdx.map fun (text, index) ↦
      .answer index (cString text) }

/-- An attempt, as far as the trace goes: its outcome, if it has come to one, the answers that are
left, and what was said. -/
structure Attempted where
  outcome : Option Outcome
  rest : List Answer
  talk : Talk
  deriving DecidableEq, Repr

abbrev Attempting := List Answer → Talk → Attempted

def mapAuthResult (answer : Answer) (operation : String) : Outcome :=
  if answer.rc = sshAuthSuccess then .ok .success
  else if answer.rc = sshAuthDenied then .ok .denied
  else if answer.rc = sshAuthPartial then .ok .partialSuccess
  else if answer.rc = sshAuthAgain then .ok .again
  else .error {
    info := makeErrorInfo answer.last operation .fatal, function := "map_auth_result" }

/-- `auth_attempt`. -/
def authAttempt (blocking : Bool) (operation : String) (call : AuthCall) : Attempting
  | [], talk => { outcome := none, rest := [], talk }
  | answer :: trace, talk =>
    let talk := talk.asked call answer.rc true
    if answer.rc ≠ sshAuthAgain ∨ blocking = false then
      { outcome := some (mapAuthResult answer operation), rest := trace, talk }
    else if answer.late then
      { outcome := some (.error {
          info := { code := .ssh .timedOut, message := answer.last.text, operation }
          function := "auth_attempt" })
        rest := trace, talk }
    else authAttempt blocking operation call trace talk

/-- A handler of keyboard-interactive challenges, which may remember what was said before. -/
abbrev Handler := List DialogueEvent → Challenge → Except LocatedError (List Bytes)

/-- The answers of `KeyboardInteractive::with_password`: the password to the first prompt without
echo. -/
def passwordAnswers (password : Bytes) : List Prompt → List Bytes
  | [] => []
  | prompt :: prompts =>
    if prompt.echo then [] :: passwordAnswers password prompts
    else password :: prompts.map fun _ ↦ []

def withPassword (password : Bytes) : Handler :=
  fun _ challenge ↦ .ok (passwordAnswers password challenge.prompts)

/-- `KeyboardInteractive::attempt`. -/
def attemptKeyboardInteractive (blocking : Bool) (handler : Option Handler) : Attempting
  | [], talk => { outcome := none, rest := [], talk }
  | answer :: trace, talk =>
    let talk := talk.asked .userauthKbdint answer.rc false
    if answer.rc = sshAuthInfo then
      match handler with
      | none =>
        { outcome := some (.error {
            info := makeErrorInfo answer.last "ssh_userauth_kbdint" .authDenied
            function := "attempt" })
          rest := trace, talk }
      | some handle =>
        let challenge := answer.challenge.read
        match handle talk.dialogue challenge with
        | .error error =>
          { outcome := some (.error error), rest := trace, talk := talk.shown challenge }
        | .ok answers =>
          attemptKeyboardInteractive blocking handler trace
            ((talk.shown challenge).answered answers)
    else if answer.rc = sshAuthAgain then
      authAttempt blocking "ssh_userauth_kbdint" .userauthKbdint trace talk
    else
      { outcome := some (mapAuthResult answer "ssh_userauth_kbdint"), rest := trace, talk }

/-- Goes on behind an attempt with a certain status; any other outcome is the outcome. -/
def continueIf (attempting : Attempting) (goesOn : AuthStatus → Bool)
    (next : AuthStatus → Attempting) : Attempting := fun trace talk ↦
  let attempted := attempting trace talk
  match attempted.outcome with
  | some (.ok status) =>
    if goesOn status then next status attempted.rest attempted.talk else attempted
  | _ => attempted

/-- The shipped authenticators. `lazyPassword` is the one that `Chain::interactive_default` ends
with, given what its callback returns. -/
inductive Authenticator
  | none
  | password (password : Bytes)
  | publicKeyAuto (passphrase : Bytes)
  | publicKey (key : Bytes)
  | agent
  | keyboardInteractive (handler : Option Handler)
  | lazyPassword (callback : Option (Except LocatedError Bytes))
  | chain (chain : List Authenticator)

def attemptPassword (blocking : Bool) (password : Bytes) : Attempting :=
  authAttempt blocking "ssh_userauth_password" (.userauthPassword (cString password))

mutual

/-- `Authenticator::attempt`. -/
def attempt (blocking : Bool) : Authenticator → Attempting
  | .none => authAttempt blocking "ssh_userauth_none" .userauthNone
  | .password password => attemptPassword blocking password
  | .publicKeyAuto passphrase =>
    authAttempt blocking "ssh_userauth_publickey_auto"
      (.userauthPublickeyAuto (if passphrase = [] then none else some (cString passphrase)))
  | .publicKey key =>
    continueIf (authAttempt blocking "ssh_userauth_try_publickey" (.userauthTryPublickey key))
      (· = .success)
      fun _ ↦ authAttempt blocking "ssh_userauth_publickey" (.userauthPublickey key)
  | .agent => authAttempt blocking "ssh_userauth_agent" .userauthAgent
  | .keyboardInteractive handler => attemptKeyboardInteractive blocking handler
  | .lazyPassword callback => fun trace talk ↦
    match callback.getD (.ok []) with
    | .error error => { outcome := some (.error error), rest := trace, talk }
    | .ok password => attemptPassword blocking password trace talk
  | .chain chain => attemptChain blocking chain .denied

/-- The loop of `Chain::attempt`; `last` is the status of the attempt before. -/
def attemptChain (blocking : Bool) : List Authenticator → AuthStatus → Attempting
  | [], last => fun trace talk ↦ { outcome := some (.ok last), rest := trace, talk }
  | authenticator :: chain, _ =>
    continueIf (attempt blocking authenticator) (· ≠ .success) fun status ↦
      attemptChain blocking chain status

end

end LibSshpp.Client
