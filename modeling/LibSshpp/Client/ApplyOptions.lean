import LibSshpp.Client.Session
import Mathlib.Data.List.Basic

/-!
How a session's options reach libssh. `apply_options` makes one native call after
another; about half of them are checked, and the first checked call that libssh
refuses ends the sequence with an error that names the option. The other half go
unchecked. The constructor drops the error altogether, and `try_connect` does not
bring it back.
-/

set_option autoImplicit false
set_option relaxedAutoImplicit false

namespace LibSshpp.Client

inductive Compression
  | off | on | zlib | zlibOpenssh
  deriving DecidableEq, Repr

/-- `SessionOptions` in full, less `locking` and `log_level`, which are no options
of libssh. The timeout is in microseconds, the rekeying time in seconds. -/
structure FullOptions extends SessionOptions where
  user : Option Bytes := none
  bindAddress : Option Bytes := none
  fd : Option ℤ := none
  proxyCommand : Option Bytes := none
  proxyJump : Option Bytes := none
  timeout : Option ℤ := none
  tcpNodelay : Option Bool := none
  sshDir : Option Bytes := none
  knownHosts : Option Bytes := none
  globalKnownHosts : Option Bytes := none
  identities : List Bytes := []
  configFile : Option Bytes := none
  processConfig : Bool := true
  ciphersClientToServer : Option Bytes := none
  ciphersServerToClient : Option Bytes := none
  keyExchange : Option Bytes := none
  hmacClientToServer : Option Bytes := none
  hmacServerToClient : Option Bytes := none
  hostKeyAlgorithms : Option Bytes := none
  publicKeyAcceptedTypes : Option Bytes := none
  compression : Option Compression := none
  compressionLevel : Option ℤ := none
  rekeyDataBytes : Option UInt64 := none
  rekeyTime : Option ℤ := none
  gssapiServerIdentity : Option Bytes := none
  gssapiClientIdentity : Option Bytes := none
  gssapiDelegateCredentials : Option Bool := none
  deriving DecidableEq, Repr

/-- The members of `ssh_options_e` that carry the options. -/
inductive SshOption
  | sshDir | knownHosts | globalKnownHosts | host | port | user | bindAddr | fd | proxyCommand
  | proxyJump | timeout | timeoutUsec | nodelay | addIdentity | ciphersCS | ciphersSC
  | keyExchange | hmacCS | hmacSC | hostKeys | publickeyAcceptedTypes | compression
  | compressionLevel | rekeyData | rekeyTime | strictHostKeyCheck | gssapiServerIdentity
  | gssapiClientIdentity | gssapiDelegateCredentials | processConfig
  deriving DecidableEq, Repr

inductive OptionValue
  | text (value : Bytes)
  | number (value : ℤ)
  deriving DecidableEq, Repr

inductive NativeCall
  | optionsSet (option : SshOption) (value : OptionValue)
  | optionsParseConfig (filename : Option Bytes)
  deriving DecidableEq, Repr

/-- What libssh returns from a call, and the error it leaves behind. -/
structure NativeAnswer where
  rc : ℤ := sshOk
  lastError : SshError := {}
  deriving DecidableEq, Repr

/-- A call `apply_options` makes; a checked one has the name its failure is
reported under. -/
structure OptionRequest where
  call : NativeCall
  checkedAs : Option String := none
  deriving DecidableEq, Repr

/-- `set_string_opt`, for an option that is set. -/
def stringOpt (option : SshOption) (name : String) (value : Option Bytes) : List OptionRequest :=
  value.toList.map fun text ↦
    { call := .optionsSet option (.text (cString text)), checkedAs := some name }

/-- An `ssh_options_set` whose result is not looked at. -/
def uncheckedOpt (option : SshOption) (value : Option OptionValue) : List OptionRequest :=
  value.toList.map fun value ↦ { call := .optionsSet option value }

def Compression.text : Compression → Bytes
  | .on => ascii "yes"
  | .zlib => ascii "zlib"
  | .zlibOpenssh => ascii "zlib@openssh.com"
  | .off => ascii "no"

def flagValue (flag : Bool) : OptionValue := .number (if flag then 1 else 0)

/-- The calls of `apply_options`, in its order. -/
def optionRequests (opts : FullOptions) : List OptionRequest :=
  stringOpt .sshDir "SSH_OPTIONS_SSH_DIR" opts.sshDir ++
  stringOpt .knownHosts "SSH_OPTIONS_KNOWNHOSTS" opts.knownHosts ++
  stringOpt .globalKnownHosts "SSH_OPTIONS_GLOBAL_KNOWNHOSTS" opts.globalKnownHosts ++
  stringOpt .host "SSH_OPTIONS_HOST" (some opts.host) ++
  (opts.port.toList.map fun port ↦ {
    call := .optionsSet .port (.number port.toNat), checkedAs := some "SSH_OPTIONS_PORT" }) ++
  stringOpt .user "SSH_OPTIONS_USER" opts.user ++
  stringOpt .bindAddr "SSH_OPTIONS_BINDADDR" opts.bindAddress ++
  uncheckedOpt .fd (opts.fd.map .number) ++
  stringOpt .proxyCommand "SSH_OPTIONS_PROXYCOMMAND" opts.proxyCommand ++
  uncheckedOpt .timeout (opts.timeout.map fun count ↦ .number (count.tdiv 1000000)) ++
  uncheckedOpt .timeoutUsec (opts.timeout.map fun count ↦ .number (count.tmod 1000000)) ++
  uncheckedOpt .nodelay (opts.tcpNodelay.map flagValue) ++
  (opts.identities.flatMap fun id ↦
    stringOpt .addIdentity "SSH_OPTIONS_ADD_IDENTITY" (some id)) ++
  stringOpt .ciphersCS "SSH_OPTIONS_CIPHERS_C_S" opts.ciphersClientToServer ++
  stringOpt .ciphersSC "SSH_OPTIONS_CIPHERS_S_C" opts.ciphersServerToClient ++
  stringOpt .keyExchange "SSH_OPTIONS_KEY_EXCHANGE" opts.keyExchange ++
  stringOpt .hmacCS "SSH_OPTIONS_HMAC_C_S" opts.hmacClientToServer ++
  stringOpt .hmacSC "SSH_OPTIONS_HMAC_S_C" opts.hmacServerToClient ++
  stringOpt .hostKeys "SSH_OPTIONS_HOSTKEYS" opts.hostKeyAlgorithms ++
  stringOpt .publickeyAcceptedTypes "SSH_OPTIONS_PUBLICKEY_ACCEPTED_TYPES"
    opts.publicKeyAcceptedTypes ++
  uncheckedOpt .compression (opts.compression.map fun value ↦ .text value.text) ++
  uncheckedOpt .compressionLevel (opts.compressionLevel.map .number) ++
  uncheckedOpt .rekeyData (opts.rekeyDataBytes.map fun bytes ↦ .number bytes.toNat) ++
  uncheckedOpt .rekeyTime (opts.rekeyTime.map fun seconds ↦ .number (seconds % 2 ^ 32)) ++
  uncheckedOpt .strictHostKeyCheck
    (opts.strictHostKeyChecking.map fun value ↦ flagValue (value = .on)) ++
  stringOpt .gssapiServerIdentity "SSH_OPTIONS_GSSAPI_SERVER_IDENTITY"
    opts.gssapiServerIdentity ++
  stringOpt .gssapiClientIdentity "SSH_OPTIONS_GSSAPI_CLIENT_IDENTITY"
    opts.gssapiClientIdentity ++
  uncheckedOpt .gssapiDelegateCredentials (opts.gssapiDelegateCredentials.map flagValue) ++
  (match opts.configFile with
    | some path => [{ call := .optionsParseConfig (some (cString path)) }]
    | none => if opts.processConfig then [{ call := .optionsParseConfig none }] else []) ++
  uncheckedOpt .processConfig (some (flagValue opts.processConfig))

/-- The requests with libssh's answers to them, in order; answers that are not
given are successes. -/
def answered : List OptionRequest → List NativeAnswer → List (OptionRequest × NativeAnswer)
  | [], _ => []
  | request :: later, answers => (request, answers.headD {}) :: answered later answers.tail

/-- Makes the calls until a checked one is refused: the result, and the calls made
with what they returned. -/
def runRequests : List (OptionRequest × NativeAnswer) → Result Unit × List (NativeCall × ℤ)
  | [] => (.ok (), [])
  | (request, answer) :: later =>
    match request.checkedAs, decide (answer.rc = sshOk) with
    | some name, false =>
      (.error (makeErrorInfo answer.lastError name .invalidArgument), [(request.call, answer.rc)])
    | _, _ =>
      let (result, made) := runRequests later
      (result, (request.call, answer.rc) :: made)

def applyOptions (opts : FullOptions) (answers : List NativeAnswer) :
    Result Unit × List (NativeCall × ℤ) :=
  runRequests (answered (optionRequests opts) answers)

/-! ### Building a session from options -/

inductive Building
  | constructor | trySetOptions
  deriving DecidableEq, Repr

/-- A session with its options applied: what the caller is told, the session, and
the calls made. The constructor has no result, and ignores that of
`apply_options`; `core` is what `ssh_new` gave or the session had. -/
def buildSession (building : Building) (core : Option ℕ) (opts : FullOptions)
    (answers : List NativeAnswer) : Result Unit × Session × List (NativeCall × ℤ) :=
  let session := Session.new opts.toSessionOptions core
  match building, core with
  | .constructor, none => (.ok (), session, [])
  | .constructor, some _ => (.ok (), session, (applyOptions opts answers).2)
  | .trySetOptions, none => (.error (invalidHandle "Session::try_set_options"), session, [])
  | .trySetOptions, some _ =>
    ((applyOptions opts answers).1, session, (applyOptions opts answers).2)

/-- The calls that pass every engaged option on: those `apply_options` makes, and
one for `proxy_jump`, which it does not know. -/
def engagedCalls (opts : FullOptions) : List NativeCall :=
  (optionRequests opts).map OptionRequest.call ++
    opts.proxyJump.toList.map fun jump ↦ .optionsSet .proxyJump (.text (cString jump))

/-- Every engaged option was passed on and accepted. -/
def AllAccepted (opts : FullOptions) (made : List (NativeCall × ℤ)) : Prop :=
  made = (engagedCalls opts).map fun call ↦ (call, sshOk)

/-- When the session is built without an error and connects, every engaged option
was accepted. -/
def ReportsRefusals (building : Building) (core : Option ℕ) (opts : FullOptions)
    (answers : List NativeAnswer) (connectRc : ℤ) (last : SshError) : Prop :=
  (buildSession building core opts answers).1 = .ok () →
    (buildSession building core opts answers).2.1.tryConnect connectRc last = .ok () →
      AllAccepted opts (buildSession building core opts answers).2.2

/-- Some call is refused. -/
def AnyRefused (opts : FullOptions) (answers : List NativeAnswer) : Prop :=
  ∃ entry ∈ answered (optionRequests opts) answers, entry.2.rc ≠ sshOk

/-- Some checked call is refused. -/
def CheckedRefused (opts : FullOptions) (answers : List NativeAnswer) : Prop :=
  ∃ entry ∈ answered (optionRequests opts) answers,
    entry.1.checkedAs.isSome ∧ entry.2.rc ≠ sshOk

theorem answered_map_call (requests : List OptionRequest) (answers : List NativeAnswer) :
    (answered requests answers).map (fun entry ↦ entry.1.call) =
      requests.map OptionRequest.call := by
  induction requests generalizing answers with
  | nil => rfl
  | cons request later ih => exact congrArg _ (ih answers.tail)

theorem runRequests_ok_iff (entries : List (OptionRequest × NativeAnswer)) :
    (runRequests entries).1 = .ok () ↔
      ¬ ∃ entry ∈ entries, entry.1.checkedAs.isSome ∧ entry.2.rc ≠ sshOk := by
  induction entries with
  | nil => simp [runRequests]
  | cons entry later ih =>
    obtain ⟨⟨call, checkedAs⟩, answer⟩ := entry
    by_cases hrc : answer.rc = sshOk <;> cases checkedAs <;> simp_all [runRequests]

/-- The calls made are all those requested, each with success, exactly when no
answer is a refusal. -/
theorem runRequests_made_iff (entries : List (OptionRequest × NativeAnswer)) :
    (runRequests entries).2 = entries.map (fun entry ↦ (entry.1.call, sshOk)) ↔
      ¬ ∃ entry ∈ entries, entry.2.rc ≠ sshOk := by
  induction entries with
  | nil => simp [runRequests]
  | cons entry later ih =>
    obtain ⟨⟨call, checkedAs⟩, answer⟩ := entry
    by_cases hrc : answer.rc = sshOk <;> cases checkedAs <;> simp_all [runRequests]

/-- Never more calls than requested. -/
theorem runRequests_made_length (entries : List (OptionRequest × NativeAnswer)) :
    (runRequests entries).2.length ≤ entries.length := by
  induction entries with
  | nil => simp [runRequests]
  | cons entry later ih =>
    obtain ⟨⟨call, checkedAs⟩, answer⟩ := entry
    by_cases hrc : answer.rc = sshOk <;> cases checkedAs <;> simp_all [runRequests]

theorem answered_length (requests : List OptionRequest) (answers : List NativeAnswer) :
    (answered requests answers).length = requests.length := by
  have hcalls := congrArg List.length (answered_map_call requests answers)
  simpa using hcalls

theorem allAccepted_iff (opts : FullOptions) (answers : List NativeAnswer) :
    AllAccepted opts (applyOptions opts answers).2 ↔
      opts.proxyJump = none ∧ ¬ AnyRefused opts answers := by
  cases hjump : opts.proxyJump with
  | none =>
    have hcalls : (engagedCalls opts).map (fun call ↦ (call, sshOk)) =
        (answered (optionRequests opts) answers).map fun entry ↦ (entry.1.call, sshOk) := by
      rw [engagedCalls, hjump, ← answered_map_call (optionRequests opts) answers]
      simp
    rw [AllAccepted, hcalls, applyOptions, runRequests_made_iff]
    simp [AnyRefused]
  | some jump =>
    -- the list of calls is one too short, whatever libssh answers
    refine iff_of_false (fun h ↦ ?_) (by simp)
    have hlength := congrArg List.length h
    have hmade := runRequests_made_length (answered (optionRequests opts) answers)
    rw [answered_length] at hmade
    simp only [engagedCalls, hjump, applyOptions, Option.toList_some, List.map_cons, List.map_nil,
      List.map_append, List.length_append, List.length_map, List.length_cons,
      List.length_nil] at hlength
    omega

theorem applyOptions_ok_iff (opts : FullOptions) (answers : List NativeAnswer) :
    (applyOptions opts answers).1 = .ok () ↔ ¬ CheckedRefused opts answers :=
  runRequests_ok_iff _

theorem tryConnect_new_iff (opts : SessionOptions) (core : Option ℕ) (rc : ℤ) (last : SshError) :
    (Session.new opts core).tryConnect rc last = .ok () ↔ core ≠ none ∧ rc = sshOk := by
  unfold Session.tryConnect Session.new
  split_ifs <;> simp_all

/-- For every choice of options and every pattern of answers, a session that is
built without an error and connects has all its engaged options accepted, if and
only if it has no native session, it fails to connect, or nothing is refused and
`proxy_jump` is not set; or, for `try_set_options`, a checked call is refused. -/
theorem reportsRefusals_iff (building : Building) (core : Option ℕ) (opts : FullOptions)
    (answers : List NativeAnswer) (connectRc : ℤ) (last : SshError) :
    ReportsRefusals building core opts answers connectRc last ↔
      core = none ∨ connectRc ≠ sshOk ∨
        (opts.proxyJump = none ∧ ¬ AnyRefused opts answers) ∨
        (building = .trySetOptions ∧ CheckedRefused opts answers) := by
  cases core with
  | none =>
    refine iff_of_true (fun _ hconnect ↦ ?_) (.inl rfl)
    cases building <;> simp [buildSession, tryConnect_new_iff] at hconnect
  | some core =>
    by_cases hrc : connectRc = sshOk
    · subst hrc
      have hconnect : (Session.new opts.toSessionOptions (some core)).tryConnect sshOk last =
          .ok () := (tryConnect_new_iff _ _ _ _).mpr ⟨by simp, rfl⟩
      cases building with
      | constructor =>
        simp only [ReportsRefusals, buildSession, hconnect, forall_const, allAccepted_iff,
          reduceCtorEq, ne_eq, not_true_eq_false, false_and, false_or, or_false]
      | trySetOptions =>
        simp only [ReportsRefusals, buildSession, hconnect, forall_const, allAccepted_iff,
          applyOptions_ok_iff, reduceCtorEq, ne_eq, not_true_eq_false, true_and, false_or]
        exact or_iff_not_imp_right.symm
    · refine iff_of_true (fun _ hconnect ↦ absurd ?_ hrc) (.inr (.inl hrc))
      cases building <;> exact ((tryConnect_new_iff _ _ _ _).mp hconnect).2

/-- A cipher list libssh does not know, and a compression level it does not take. -/
def refusedCiphers : FullOptions where
  host := ascii "db.internal"
  ciphersClientToServer := some (ascii "none-such")

def refusedLevel : FullOptions where
  host := ascii "db.internal"
  compressionLevel := some 42

/-- Both sessions connect with an option missing and nobody told: the constructor
swallows the refused ciphers, and no result of `try_set_options` mentions the
refused level. -/
theorem refused_options_connect :
    ¬ ReportsRefusals .constructor (some 0) refusedCiphers [{}, { rc := -1 }] 0 {} ∧
      ¬ ReportsRefusals .trySetOptions (some 0) refusedLevel [{}, { rc := -1 }] 0 {} := by
  unfold ReportsRefusals AllAccepted
  constructor
  · exact fun h ↦ absurd (h (by decide +kernel) (by decide +kernel)) (by decide +kernel)
  · exact fun h ↦ absurd (h (by decide +kernel) (by decide +kernel)) (by decide +kernel)

end LibSshpp.Client
