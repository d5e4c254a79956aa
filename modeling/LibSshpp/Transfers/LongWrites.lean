import LibSshpp.Transfers.PrefixLaw

/-!
`Channel::try_write_all` on data of any length. Every call passes the remaining length as a
32-bit number, so no call reaches over a multiple of 2³² bytes from the end: a channel that
takes something each time is brought to such a place, and there the call asks for nothing.
-/

set_option autoImplicit false
set_option relaxedAutoImplicit false

namespace LibSshpp.Transfers

open Program Exec

/-- A channel that never reports an error, takes at least one byte of each non-empty write and
no more than it is asked for. -/
def Peer.Accepting (peer : Peer) : Prop :=
  ∀ call asked, 0 ≤ (peer.answer call asked).returns ∧
    (0 < asked → 1 ≤ (peer.answer call asked).returns) ∧
      (peer.answer call asked).returns ≤ (asked : ℤ)

/-- A piece of data offered to an accepting channel. -/
theorem throughHandle_transferOut {peer : Peer} (hpeer : peer.Accepting) (operation : String)
    (failure : Answer → ErrorInfo) (span : Span) (machine : Machine) :
    ∃ taken after, throughHandle true operation (peer.transferOut span) failure machine =
        (.ok taken, after) ∧
      taken ≤ span.length ∧ (0 < span.length → 1 ≤ taken) ∧
        Sent machine ⟨span.start, taken⟩ after := by
  obtain ⟨hok, hpos, hle⟩ := hpeer machine.requests.length span.length
  refine ⟨(peer.transferOut span machine).1.returns.toNat, (peer.transferOut span machine).2,
    ?_, ?_, ?_, ⟨rfl, rfl, rfl⟩⟩
  · rw [throughHandle_eq, if_neg (by decide)]
    exact if_neg (Int.not_lt.mpr hok)
  · exact Int.toNat_le.mpr hle
  · intro hlength
    exact (Int.le_toNat hok).mpr (hpos hlength)

/-- From any point of the data the loop writes what is left modulo 2³² and then, unless that
was all, gives up. The recursion is the loop's own. -/
theorem transferLoop_accepting {peer : Peer} (hpeer : peer.Accepting) (operation : String)
    (failure : Answer → ErrorInfo) (nothing : ErrorInfo) (data : Span) (moved : ℕ)
    (machine : Machine) :
    let loop := transferLoop nothing (fun span ↦ throughHandle true operation
      (peer.transferOut ⟨span.start, span.length % 2 ^ 32⟩) failure) data moved machine
    loop.1 = (if data.length - moved < 2 ^ 32 then .ok () else .error nothing) ∧
      Sent machine ⟨data.start + moved, (data.length - moved) % 2 ^ 32⟩ loop.2 := by
  dsimp only
  by_cases hleft : moved < data.length
  · obtain ⟨taken, after, hcall, hle, hpos, hsent⟩ := throughHandle_transferOut hpeer operation
      failure ⟨data.start + moved, (data.length - moved) % 2 ^ 32⟩ machine
    dsimp only at hle hpos hsent
    cases taken with
    | zero =>
      -- the length that was passed is zero although something is left
      rw [transferLoop_nothing hleft hcall]
      have hzero : (data.length - moved) % 2 ^ 32 = 0 := by omega
      rw [hzero]
      exact ⟨(if_neg (by omega)).symm, hsent⟩
    | succ taken =>
      rw [transferLoop_more hleft hcall]
      obtain ⟨hresult, hrest⟩ := transferLoop_accepting hpeer operation failure nothing data
        (moved + (taken + 1)) after
      constructor
      · rw [hresult]
        exact if_congr (by omega) rfl rfl
      · have hsum : (data.length - moved) % 2 ^ 32 =
            taken + 1 + (data.length - (moved + (taken + 1))) % 2 ^ 32 := by omega
        rw [hsum]
        refine composes_sent.trans hsent ?_
        rw [Nat.add_assoc]
        exact hrest
  · rw [transferLoop_done (by omega), show data.length - moved = 0 by omega]
    exact ⟨(if_pos (by decide)).symm, composes_sent.refl _ _⟩
termination_by data.length - moved

/-- Both forms of the loop on a channel with a native handle. -/
theorem channelTryWriteAllTo_accepting {peer : Peer} (hpeer : peer.Accepting) (stream : Stream)
    (data : Span) (machine : Machine) :
    (channelTryWriteAllTo true peer stream data machine).1 =
        (if data.length < 2 ^ 32 then .ok ()
          else .error (shortWrite "Channel::try_write_all")) ∧
      Sent machine ⟨data.start, data.length % 2 ^ 32⟩
        (channelTryWriteAllTo true peer stream data machine).2 := by
  cases stream with
  | stdout =>
    exact transferLoop_accepting hpeer "Channel::try_write_some"
      (fun answer ↦ makeErrorInfo answer.sshError "ssh_channel_write" .channelClosed)
      (shortWrite "Channel::try_write_all") data 0 machine
  | stderr =>
    exact transferLoop_accepting hpeer "Channel::try_write_some"
      (fun answer ↦ makeErrorInfo answer.sshError "ssh_channel_write_stderr" .channelClosed)
      (shortWrite "Channel::try_write_all") data 0 machine

theorem channelTryWriteAll_eq (native : Bool) (peer : Peer) :
    channelTryWriteAll native peer = channelTryWriteAllTo native peer .stdout := rfl

/-- On a channel that always takes something, the loop succeeds with exactly the data written
when and only when the data is shorter than 2³² bytes. -/
theorem channelTryWriteAll_iff {peer : Peer} (hpeer : peer.Accepting) (data : Span)
    (machine : Machine) :
    ((channelTryWriteAll true peer data machine).1 = .ok () ∧
        Sent machine data (channelTryWriteAll true peer data machine).2 ↔
      data.length < 2 ^ 32) ∧
    ∀ stream, (channelTryWriteAllTo true peer stream data machine).1 = .ok () ∧
        Sent machine data (channelTryWriteAllTo true peer stream data machine).2 ↔
      data.length < 2 ^ 32 := by
  have hboth : ∀ stream, (channelTryWriteAllTo true peer stream data machine).1 = .ok () ∧
      Sent machine data (channelTryWriteAllTo true peer stream data machine).2 ↔
        data.length < 2 ^ 32 := by
    intro stream
    obtain ⟨hresult, hsent⟩ := channelTryWriteAllTo_accepting hpeer stream data machine
    rw [hresult]
    constructor
    · rintro ⟨hok, -⟩
      by_contra hlong
      rw [if_neg hlong] at hok
      exact nomatch hok
    · intro hshort
      rw [Nat.mod_eq_of_lt hshort] at hsent
      exact ⟨if_pos hshort, hsent⟩
  exact ⟨by rw [channelTryWriteAll_eq]; exact hboth .stdout, hboth⟩

/-- A channel that takes whatever it is asked for. -/
def takesAll : Peer where
  answer := fun _ asked ↦ { returns := asked }

theorem takesAll_accepting : takesAll.Accepting := by
  intro call asked
  simp only [takesAll]
  omega

theorem channelTryWriteAll_iff_takesAll :
    ((channelTryWriteAll true takesAll ⟨0, 3⟩ { memory := fun _ ↦ 0 }).1 = .ok () ∧
        Sent { memory := fun _ ↦ 0 } ⟨0, 3⟩
          (channelTryWriteAll true takesAll ⟨0, 3⟩ { memory := fun _ ↦ 0 }).2 ↔
      (⟨0, 3⟩ : Span).length < 2 ^ 32) :=
  (channelTryWriteAll_iff takesAll_accepting ⟨0, 3⟩ { memory := fun _ ↦ 0 }).1

/-- Of 2³² bytes nothing is written, although the channel takes everything. -/
theorem channelTryWriteAll_wrapped : takesAll.Accepting ∧
    (channelTryWriteAll true takesAll ⟨0, 2 ^ 32⟩ { memory := fun _ ↦ 0 }).1 =
      .error (shortWrite "Channel::try_write_all") := by
  refine ⟨takesAll_accepting, ?_⟩
  rw [channelTryWriteAll_eq,
    (channelTryWriteAllTo_accepting takesAll_accepting .stdout ⟨0, 2 ^ 32⟩ _).1]
  exact if_neg (by decide)

end LibSshpp.Transfers
