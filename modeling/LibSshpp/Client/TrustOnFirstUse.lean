import LibSshpp.Client.Session
import LibSshpp.Program.StateTriple

/-!
Trust on first use. Connections to one host, each presenting some key, are
verified one after another with `TofuHostKeyPolicy` against a known_hosts store.
The store is libssh's: what it answers and how it is updated is given by the two
calls of each connection, which are only assumed to keep what libssh documents.
Whatever the keys and whatever writes fail, the first key that is accepted is the
only one.
-/

set_option autoImplicit false
set_option relaxedAutoImplicit false

open LibSshpp.Program

namespace LibSshpp.Client

/-- `TofuHostKeyPolicy`. -/
def tofuHostKeyPolicy : HostKeyVerifier := fun context ↦
  match context.status with
  | .ok => .accept
  | .notFound => .acceptAndRemember
  | .unknown => .acceptAndRemember
  | .changed => .reject
  | .otherType => .reject
  | .error => .reject

/-- The keys known_hosts holds for a host. -/
abbrev KnownKeys := List Bytes

/-- What libssh's two known_hosts calls do on one connection: the answer of
`ssh_session_is_known_server`, and the result and effect of
`ssh_session_update_known_hosts`. -/
structure KnownHostsCalls where
  isKnownServer : KnownKeys → NativeKnownHosts
  updateKnownHosts : KnownKeys → ℤ × KnownKeys

/-- What is assumed of the calls on a connection that presents `key`. An update
that reports an error may have written the key or not. -/
structure KnownHostsCalls.Lawful {κ : Type} (calls : KnownHostsCalls) (keyType : Bytes → κ)
    (key : Bytes) : Prop where
  ok : ∀ keys, calls.isKnownServer keys = .ok → key ∈ keys
  changed : ∀ keys, calls.isKnownServer keys = .changed →
    key ∉ keys ∧ ∃ other ∈ keys, keyType other = keyType key
  other : ∀ keys, calls.isKnownServer keys = .other →
    keys ≠ [] ∧ ∀ other ∈ keys, keyType other ≠ keyType key
  absent : ∀ keys, calls.isKnownServer keys = .notFound ∨ calls.isKnownServer keys = .unknown →
    keys = []
  written : ∀ keys, (calls.updateKnownHosts keys).1 = sshOk →
    (calls.updateKnownHosts keys).2 = keys ++ [key]
  failed : ∀ keys, (calls.updateKnownHosts keys).1 ≠ sshOk →
    (calls.updateKnownHosts keys).2 = keys ∨ (calls.updateKnownHosts keys).2 = keys ++ [key]

/-- A connection whose host key is verified: the session, the key the server
presents, whether libssh hands it out, its fingerprint, and the known_hosts
calls. -/
structure HostConnection where
  session : Session
  key : Bytes
  publicKeyRc : ℤ := sshOk
  fingerprint : Result Bytes
  calls : KnownHostsCalls
  lastError : SshError := {}

def HostConnection.answers (connection : HostConnection) (keys : KnownKeys) : HostKeyAnswers where
  knownServer := connection.calls.isKnownServer keys
  publicKeyRc := connection.publicKeyRc
  publicKey := some connection.key
  fingerprint := connection.fingerprint
  updateRc := (connection.calls.updateKnownHosts keys).1
  lastError := connection.lastError

/-- What the verifier decides in `try_verify_host_key`, if it is asked. -/
def Session.hostKeyDecision (session : Session) (verifier : HostKeyVerifier)
    (answers : HostKeyAnswers) : Result Decision :=
  if session.core = none then .error (invalidHandle "Session::try_verify_host_key")
  else do
    let status ← session.tryCheckKnownHost answers
    let key ← session.tryServerPublicKey answers
    let sha256 ← answers.fingerprint
    pure (verifier {
      host := session.options.host, port := session.options.port.getD 22, status
      presentedKey := key, sha256 })

/-- The known keys and the keys of the connections that passed, in their order. -/
structure TofuState where
  keys : KnownKeys
  passed : List Bytes := []

/-- Verifies one connection. known_hosts is written only when the key is to be
remembered. -/
def tofuStep (connection : HostConnection) : StateM TofuState Unit := fun state ↦
  let answers := connection.answers state.keys
  let remembers :=
    connection.session.hostKeyDecision tofuHostKeyPolicy answers = .ok .acceptAndRemember
  ((), {
    keys := if remembers then (connection.calls.updateKnownHosts state.keys).2 else state.keys
    passed :=
      if connection.session.tryVerifyHostKey tofuHostKeyPolicy answers = .ok () then
        state.passed ++ [connection.key]
      else state.passed })

/-! ### One verification -/

/-- `try_verify_host_key` acts on the decision. -/
theorem tryVerifyHostKey_eq_ok_iff (session : Session) (verifier : HostKeyVerifier)
    (answers : HostKeyAnswers) :
    session.tryVerifyHostKey verifier answers = .ok () ↔
      session.hostKeyDecision verifier answers = .ok .accept ∨
        (session.hostKeyDecision verifier answers = .ok .acceptAndRemember ∧
          answers.updateRc = sshOk) := by
  unfold Session.tryVerifyHostKey Session.hostKeyDecision
  by_cases hcore : session.core = none
  · simp [hcore]
  · simp only [if_neg hcore]
    rcases session.tryCheckKnownHost answers with info | status
    · simp [bind, Except.bind]
    · rcases session.tryServerPublicKey answers with info | key
      · simp [bind, Except.bind]
      · rcases answers.fingerprint with info | sha256
        · simp [bind, Except.bind]
        · simp only [bind, Except.bind, pure, Except.pure, Except.ok.injEq]
          generalize verifier _ = decision
          cases decision with
          | accept => simp
          | reject => simp
          | acceptAndRemember =>
            simp only [Session.tryUpdateKnownHosts, if_neg hcore]
            split_ifs with hupdate <;> simp_all

/-- The verifier decides on the status libssh reports and the key's fingerprint. -/
theorem hostKeyDecision_context {session : Session} {verifier : HostKeyVerifier}
    {answers : HostKeyAnswers} {decision : Decision}
    (h : session.hostKeyDecision verifier answers = .ok decision) :
    ∃ context : VerifierContext,
      context.status = knownHostsStatusFromNative answers.knownServer ∧
        answers.fingerprint = .ok context.sha256 ∧ verifier context = decision := by
  unfold Session.hostKeyDecision at h
  split_ifs at h with hcore
  simp only [Session.tryCheckKnownHost, if_neg hcore] at h
  rcases hkey : session.tryServerPublicKey answers with info | key
  · rw [hkey] at h
    exact nomatch h
  · rw [hkey] at h
    rcases hfingerprint : answers.fingerprint with info | sha256
    · rw [hfingerprint] at h
      exact nomatch h
    · rw [hfingerprint] at h
      exact ⟨_, rfl, rfl, Except.ok.inj h⟩

section Tofu

variable {session : Session} {answers : HostKeyAnswers}

theorem tofu_accept (h : session.hostKeyDecision tofuHostKeyPolicy answers = .ok .accept) :
    answers.knownServer = .ok := by
  obtain ⟨context, hstatus, -, hdecision⟩ := hostKeyDecision_context h
  unfold tofuHostKeyPolicy at hdecision
  rw [hstatus] at hdecision
  cases hknown : answers.knownServer <;> simp_all [knownHostsStatusFromNative]

theorem tofu_remember
    (h : session.hostKeyDecision tofuHostKeyPolicy answers = .ok .acceptAndRemember) :
    answers.knownServer = .notFound ∨ answers.knownServer = .unknown := by
  obtain ⟨context, hstatus, -, hdecision⟩ := hostKeyDecision_context h
  unfold tofuHostKeyPolicy at hdecision
  rw [hstatus] at hdecision
  cases hknown : answers.knownServer <;> simp_all [knownHostsStatusFromNative]

end Tofu

/-! ### Sequences of connections -/

/-- Nothing is known and nobody has passed, or one key is known and only
connections with that key have passed. -/
def Pinned (state : TofuState) : Prop :=
  (state.keys = [] ∧ state.passed = []) ∨
    ∃ key, state.keys = [key] ∧ ∀ passed ∈ state.passed, passed = key

theorem pinned_tofuStep {κ : Type} (keyType : Bytes → κ) (connection : HostConnection) :
    Triple (fun state ↦ Pinned state ∧ connection.calls.Lawful keyType connection.key)
      (tofuStep connection) fun _ ↦ Pinned := by
  intro state ⟨hpinned, hlawful⟩
  have hpassed := tryVerifyHostKey_eq_ok_iff connection.session tofuHostKeyPolicy
    (connection.answers state.keys)
  simp only [tofuStep]
  by_cases hremembers : connection.session.hostKeyDecision tofuHostKeyPolicy
      (connection.answers state.keys) = .ok .acceptAndRemember
  · -- first use: nothing is known, and the key is written now or not at all
    have hempty : state.keys = [] := hlawful.absent state.keys (tofu_remember hremembers)
    have hnobody : state.passed = [] := by
      rcases hpinned with ⟨-, hnobody⟩ | ⟨key, hkeys, -⟩
      · exact hnobody
      · exact absurd (hempty.symm.trans hkeys) (by simp)
    rw [if_pos hremembers, hnobody]
    by_cases hwritten : (connection.calls.updateKnownHosts state.keys).1 = sshOk
    · rw [if_pos (hpassed.mpr (.inr ⟨hremembers, hwritten⟩)), hlawful.written _ hwritten, hempty]
      exact .inr ⟨connection.key, rfl, by simp⟩
    · have hfails : ¬ connection.session.tryVerifyHostKey tofuHostKeyPolicy
          (connection.answers state.keys) = .ok () := by
        rw [hpassed, hremembers]
        rintro (h | ⟨-, h⟩)
        · exact nomatch h
        · exact hwritten h
      rw [if_neg hfails]
      rcases hlawful.failed _ hwritten with hsame | hadded
      · exact .inl ⟨hsame.trans hempty, rfl⟩
      · refine .inr ⟨connection.key, ?_, by simp⟩
        rw [hadded, hempty]
        rfl
  · rw [if_neg hremembers]
    split_ifs with hok
    · -- accepted without remembering: the key is a known one
      have haccept : connection.session.hostKeyDecision tofuHostKeyPolicy
          (connection.answers state.keys) = .ok .accept := by
        rcases hpassed.mp hok with h | h
        · exact h
        · exact absurd h.1 hremembers
      have hknown : connection.key ∈ state.keys := hlawful.ok _ (tofu_accept haccept)
      rcases hpinned with ⟨hempty, -⟩ | ⟨key, hkeys, hall⟩
      · rw [hempty] at hknown
        exact absurd hknown List.not_mem_nil
      · rw [hkeys] at hknown
        refine .inr ⟨key, hkeys, fun passed hmem ↦ ?_⟩
        rcases List.mem_append.mp hmem with h | h
        · exact hall passed h
        · exact (List.mem_singleton.mp h).trans (List.mem_singleton.mp hknown)
    · exact hpinned

/-- Over every sequence of connections to a host that known_hosts has no key for,
whatever keys they present and whatever writes fail, the connections that pass
all present the key of the first one that passed, and known_hosts never holds
more than one key for the host. Assumes: the calls of libssh are lawful. -/
theorem tofu_pins_first_key {κ : Type} (keyType : Bytes → κ) (connections : List HostConnection)
    (hlawful : ∀ connection ∈ connections, connection.calls.Lawful keyType connection.key) :
    (∀ first others, (stateAfter tofuStep connections { keys := [] }).passed = first :: others →
        ∀ key ∈ others, key = first) ∧
      ∀ served, served <+: connections →
        (stateAfter tofuStep served { keys := [] }).keys.length ≤ 1 := by
  have hpinned : ∀ served, served <+: connections →
      Pinned (stateAfter tofuStep served { keys := [] }) := by
    intro served hserved
    exact invariant_of_allowed (pinned_tofuStep keyType)
      (allowed_forall_iff.mpr hlawful) (.inl ⟨rfl, rfl⟩) hserved
  constructor
  · intro first others hpassed key hkey
    rcases hpinned connections List.prefix_rfl with ⟨-, hnobody⟩ | ⟨pinned, -, hall⟩
    · exact absurd (hnobody.symm.trans hpassed) (by simp)
    · rw [hpassed] at hall
      exact (hall key (List.mem_cons_of_mem _ hkey)).trans (hall first List.mem_cons_self).symm
  · intro served hserved
    rcases hpinned served hserved with ⟨hempty, -⟩ | ⟨key, hkeys, -⟩
    · simp [hempty]
    · simp [hkeys]

/-- libssh's calls for a key whose type is its first byte, with the result the
update reports and whether it writes the key. -/
def plainCalls (key : Bytes) (updateRc : ℤ) (writes : Bool) : KnownHostsCalls where
  isKnownServer keys :=
    if key ∈ keys then .ok
    else if keys.any fun other ↦ other.head? == key.head? then .changed
    else if keys = [] then .unknown
    else .other
  updateKnownHosts keys := (updateRc, if writes then keys ++ [key] else keys)

def plainConnection (key : Bytes) (updateRc : ℤ) (writes : Bool) : HostConnection where
  session := { core := some 0 }
  key
  fingerprint := .ok key
  calls := plainCalls key updateRc writes

theorem plainCalls_lawful (key : Bytes) {updateRc : ℤ} {writes : Bool}
    (h : updateRc = sshOk → writes = true) :
    (plainCalls key updateRc writes).Lawful List.head? key := by
  refine ⟨fun keys hanswer ↦ ?_, fun keys hanswer ↦ ?_, fun keys hanswer ↦ ?_,
    fun keys hanswer ↦ ?_, fun keys hwritten ↦ ?_, fun keys _ ↦ ?_⟩
  · simp only [plainCalls] at hanswer
    split_ifs at hanswer with hmem
    exact hmem
  · simp only [plainCalls] at hanswer
    split_ifs at hanswer with hmem hsame
    exact ⟨hmem, by simpa using hsame⟩
  · simp only [plainCalls] at hanswer
    split_ifs at hanswer with hmem hsame hempty
    exact ⟨hempty, by simpa using hsame⟩
  · simp only [plainCalls] at hanswer
    split_ifs at hanswer with hmem hsame hempty
    · simp at hanswer
    · simp at hanswer
    · exact hempty
    · simp at hanswer
  · simp only [plainCalls]
    rw [if_pos (h hwritten)]
  · cases writes
    · exact .inl rfl
    · exact .inr rfl

/-- A failed write, the first key, an attack with a key of the same type, one with
a key of another type, and the first key again. -/
def attackedHost : List HostConnection :=
  [plainConnection [1, 1] (-1) false, plainConnection [1, 1] 0 true,
    plainConnection [1, 2] 0 true, plainConnection [2, 1] 0 true, plainConnection [1, 1] 0 true]

theorem tofu_pins_first_key_attacked :
    (stateAfter tofuStep attackedHost { keys := [] }).passed = [[1, 1], [1, 1]] ∧
      (∀ first others,
        (stateAfter tofuStep attackedHost { keys := [] }).passed = first :: others →
          ∀ key ∈ others, key = first) ∧
      ∀ served, served <+: attackedHost →
        (stateAfter tofuStep served { keys := [] }).keys.length ≤ 1 := by
  refine ⟨by decide +kernel, tofu_pins_first_key List.head? attackedHost ?_⟩
  intro connection hconnection
  simp only [attackedHost, List.mem_cons, List.not_mem_nil, or_false] at hconnection
  rcases hconnection with rfl | rfl | rfl | rfl | rfl
  · exact plainCalls_lawful _ fun h ↦ absurd h (by decide)
  all_goals exact plainCalls_lawful _ fun _ ↦ rfl

end LibSshpp.Client
