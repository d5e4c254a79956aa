import LibSshpp.Client.TrustOnFirstUse
import LibSshpp.Server.CredentialTable

/-!
Comparisons of secrets that look at every byte. The accumulated differences decide equality, of
passwords as of fingerprints, and so the pinned policy accepts the pinned keys and no others.
-/

set_option autoImplicit false
set_option relaxedAutoImplicit false

namespace LibSshpp.Client

open Server SimpleAuthHandler

/-- The fingerprint of the presented key. -/
def VerifierContext.presented (context : VerifierContext) : Fingerprint where
  type := .sha256
  bytes := context.sha256

/-- `PinnedHostKeyPolicy` with its pins. -/
def pinnedHostKeyPolicy (pins : List Fingerprint) : HostKeyVerifier := fun context ↦
  if pins.any fun pin ↦ pin.equal context.presented then .accept else .reject

theorem pinned_accept_iff (pins : List Fingerprint) (context : VerifierContext) :
    pinnedHostKeyPolicy pins context = .accept ↔ context.presented ∈ pins := by
  have hany : (pins.any fun pin ↦ pin.equal context.presented) = true ↔
      context.presented ∈ pins := by
    simp only [List.any_eq_true, Fingerprint.equal_iff, exists_eq_right]
  rw [pinnedHostKeyPolicy, ← hany]
  split_ifs with hmatch
  · exact iff_of_true rfl hmatch
  · exact iff_of_false (fun h ↦ nomatch h) hmatch

/-- The policy never asks for a key to be remembered. -/
theorem pinned_ne_remember (pins : List Fingerprint) (context : VerifierContext) :
    pinnedHostKeyPolicy pins context ≠ .acceptAndRemember := by
  rw [pinnedHostKeyPolicy]
  split_ifs <;> exact fun h ↦ nomatch h

/-- The loops that accumulate differences decide equality, for passwords, for fingerprints and
for the pins of a host key. -/
theorem accumulatedDifferences_decide :
    (∀ stored password : Bytes, passwordsEqual stored password = true ↔
      stored.length = password.length ∧ stored = password) ∧
    (∀ fingerprint other : Fingerprint, fingerprint.equal other = true ↔
      fingerprint.type = other.type ∧ fingerprint.bytes.length = other.bytes.length ∧
        fingerprint.bytes = other.bytes) ∧
    ∀ (pins : List Fingerprint) (context : VerifierContext),
      pinnedHostKeyPolicy pins context = .accept ↔ ∃ pin ∈ pins, pin = context.presented := by
  refine ⟨fun stored password ↦ ?_, fun fingerprint other ↦ ?_, fun pins context ↦ ?_⟩
  · rw [passwordsEqual_iff]
    exact ⟨fun h ↦ ⟨congrArg List.length h, h⟩, And.right⟩
  · rw [Fingerprint.equal_iff, Fingerprint.ext_iff]
    exact and_congr_right fun _ ↦ ⟨fun h ↦ ⟨congrArg List.length h, h⟩, And.right⟩
  · rw [pinned_accept_iff]
    exact exists_eq_right.symm

/-- A session verified with pins has presented a pinned key, whatever known_hosts says. -/
theorem tryVerifyHostKey_pinned {session : Session} {pins : List Fingerprint}
    {answers : HostKeyAnswers}
    (h : session.tryVerifyHostKey (pinnedHostKeyPolicy pins) answers = .ok ()) :
    ∃ sha256, answers.fingerprint = .ok sha256 ∧
      ({ type := .sha256, bytes := sha256 } : Fingerprint) ∈ pins := by
  rcases (tryVerifyHostKey_eq_ok_iff session _ answers).mp h with haccept | ⟨hremember, -⟩
  · obtain ⟨context, -, hfingerprint, hverdict⟩ := hostKeyDecision_context haccept
    exact ⟨context.sha256, hfingerprint, (pinned_accept_iff pins context).mp hverdict⟩
  · obtain ⟨context, -, -, hverdict⟩ := hostKeyDecision_context hremember
    exact absurd hverdict (pinned_ne_remember pins context)

end LibSshpp.Client
