import LibSshpp.Transfers.Loops

/-!
What all six loops do, whatever the other side answers: they ask only for parts of the range
they were given, they move a front part of it in order, and they succeed exactly when that is
the whole range.
-/

set_option autoImplicit false
set_option relaxedAutoImplicit false

namespace LibSshpp.Transfers

open Program Exec

variable {ε : Type}

/-- No call reports more than it was asked for. -/
def Peer.Honest (peer : Peer) : Prop :=
  ∀ call asked, (peer.answer call asked).returns ≤ (asked : ℤ)

/-- The range holds the next bytes of the source in order, and no other byte is touched. -/
def Delivered (peer : Peer) (before : Machine) (span : Span) (after : Machine) : Prop :=
  bytesOf after.memory span = bytesOf peer.source ⟨before.received, span.length⟩ ∧
    (∀ address, ¬ (span.start ≤ address ∧ address < span.start + span.length) →
      after.memory address = before.memory address) ∧
    after.received = before.received + span.length ∧ after.sent = before.sent

/-- A program that moves a whole range or fails: it makes no more calls than the range has
bytes, each for a part of the range; it moves a front part; and it succeeds exactly when
everything was moved. -/
def MovesExactly (moves : Machine → Span → Machine → Prop)
    (program : Span → StateM Machine Bool) : Prop :=
  ∀ (view : Span) (before : Machine),
    (∃ requests, (program view before).2.requests = before.requests ++ requests ∧
      requests.length ≤ view.length ∧ ∀ request ∈ requests, request.Within view) ∧
    ∃ count ≤ view.length, moves before ⟨view.start, count⟩ (program view before).2 ∧
      ((program view before).1 = true ↔ count = view.length)

/-! ### One call -/

/-- A call for a range: it moves the front of the range, as much as it reports, and asks for
one part of the range at most. -/
structure CallMoves (moves : Machine → Span → Machine → Prop)
    (call : Span → StateM Machine Answer) : Prop extends Composes moves where
  returns_le : ∀ span machine, (call span machine).1.returns ≤ (span.length : ℤ)
  moves_call : ∀ span machine,
    moves machine ⟨span.start, (call span machine).1.returns.toNat⟩ (call span machine).2
  asks : ∀ span machine, ∃ request : Span, request.Within span ∧
    (call span machine).2.requests = machine.requests ++ [request]

theorem composes_sent : Composes Sent where
  refl := fun machine start ↦ ⟨by rw [bytesOf_zero, List.append_nil], rfl, rfl⟩
  trans := by
    intro before middle after start count more hfirst hsecond
    obtain ⟨hsent, hmemory, hreceived⟩ := hfirst
    obtain ⟨hsent', hmemory', hreceived'⟩ := hsecond
    refine ⟨?_, hmemory'.trans hmemory, hreceived'.trans hreceived⟩
    rw [hsent', hsent, hmemory, bytesOf_add, List.append_assoc]

theorem composes_received (peer : Peer) : Composes (Received peer) where
  refl := fun machine start ↦ ⟨(fill_zero _ _ _ _).symm, rfl, rfl⟩
  trans := by
    intro before middle after start count more hfirst hsecond
    obtain ⟨hmemory, hreceived, hsent⟩ := hfirst
    obtain ⟨hmemory', hreceived', hsent'⟩ := hsecond
    refine ⟨?_, ?_, hsent'.trans hsent⟩
    · rw [hmemory', hreceived, hmemory, fill_fill]
    · rw [hreceived', hreceived, Nat.add_assoc]

theorem Received.delivered {peer : Peer} {before after : Machine} {span : Span}
    (h : Received peer before span after) : Delivered peer before span after := by
  obtain ⟨hmemory, hreceived, hsent⟩ := h
  refine ⟨?_, fun address houtside ↦ ?_, hreceived, hsent⟩
  · rw [hmemory, bytesOf_fill]
  · rw [hmemory, fill_of_outside houtside]

section Calls

variable {peer : Peer}

theorem callMoves_transferOut (hpeer : peer.Honest) : CallMoves Sent peer.transferOut where
  toComposes := composes_sent
  returns_le := fun span machine ↦ hpeer machine.requests.length span.length
  moves_call := fun _ _ ↦ ⟨rfl, rfl, rfl⟩
  asks := fun span _ ↦ ⟨span, ⟨le_rfl, le_rfl⟩, rfl⟩

theorem callMoves_transferIn (hpeer : peer.Honest) :
    CallMoves (Received peer) peer.transferIn where
  toComposes := composes_received peer
  returns_le := fun span machine ↦ hpeer machine.requests.length span.length
  moves_call := fun _ _ ↦ ⟨rfl, rfl, rfl⟩
  asks := fun span _ ↦ ⟨span, ⟨le_rfl, le_rfl⟩, rfl⟩

/-- A shorter request for the same front, as the 32-bit length makes of a long one. -/
theorem callMoves_shortened {moves : Machine → Span → Machine → Prop}
    {call : Span → StateM Machine Answer} (h : CallMoves moves call) {cut : ℕ → ℕ}
    (hcut : ∀ length, cut length ≤ length) :
    CallMoves moves fun span ↦ call ⟨span.start, cut span.length⟩ where
  toComposes := h.toComposes
  returns_le := fun span machine ↦
    Int.le_trans (h.returns_le ⟨span.start, cut span.length⟩ machine)
      (Int.ofNat_le.mpr (hcut span.length))
  moves_call := fun span machine ↦ h.moves_call ⟨span.start, cut span.length⟩ machine
  asks := fun span machine ↦ by
    obtain ⟨request, ⟨hstart, hend⟩, hasked⟩ := h.asks ⟨span.start, cut span.length⟩ machine
    have hle := hcut span.length
    exact ⟨request, ⟨hstart, by dsimp only at hend; omega⟩, hasked⟩

end Calls

/-! ### One piece -/

/-- A piece asks for one part of its range at most. -/
def AsksWithin (piece : Span → StateM Machine (Except ε ℕ)) : Prop :=
  ∀ span machine, (piece span machine).2.requests = machine.requests ∨
    ∃ request : Span, request.Within span ∧
      (piece span machine).2.requests = machine.requests ++ [request]

section Pieces

variable {moves : Machine → Span → Machine → Prop} {call : Span → StateM Machine Answer}

theorem throughHandle_eq (native : Bool) (operation : String) (program : StateM Machine Answer)
    (failure : Answer → ErrorInfo) (machine : Machine) :
    throughHandle native operation program failure machine =
      if native = false then
        (.error { code := .ssh .invalidHandle, operation := operation }, machine)
      else if (program machine).1.returns < 0 then
        (.error (failure (program machine).1), (program machine).2)
      else (.ok (program machine).1.returns.toNat, (program machine).2) := by
  unfold throughHandle
  split_ifs with hnative hneg
  · rfl
  · rw [bind_of_eq (show program machine = _ from rfl), if_pos hneg]
    rfl
  · rw [bind_of_eq (show program machine = _ from rfl), if_neg hneg]
    rfl

theorem positiveOnly_eq (program : StateM Machine Answer) (machine : Machine) :
    positiveOnly program machine =
      (if (program machine).1.returns ≤ 0 then .error ()
        else .ok (program machine).1.returns.toNat, (program machine).2) := by
  unfold positiveOnly
  rw [bind_of_eq (show program machine = _ from rfl)]
  split_ifs <;> rfl

theorem moves_throughHandle (h : CallMoves moves call) (native : Bool) (operation : String)
    (failure : Answer → ErrorInfo) :
    Moves moves fun span ↦ throughHandle native operation (call span) failure where
  toComposes := h.toComposes
  of_ok := by
    intro span machine count after hpiece
    rw [throughHandle_eq] at hpiece
    have hle := h.returns_le span machine
    split_ifs at hpiece with hnative hneg
    · exact nomatch hpiece
    · exact nomatch hpiece
    · obtain ⟨hcount, rfl⟩ := Prod.mk.inj hpiece
      obtain rfl := Except.ok.inj hcount
      exact ⟨by omega, h.moves_call span machine⟩
  of_error := by
    intro span machine error after hpiece
    rw [throughHandle_eq] at hpiece
    have hmoves := h.moves_call span machine
    split_ifs at hpiece with hnative hneg
    · obtain ⟨-, rfl⟩ := Prod.mk.inj hpiece
      exact h.refl machine span.start
    · obtain ⟨-, rfl⟩ := Prod.mk.inj hpiece
      rw [Int.toNat_of_nonpos (Int.le_of_lt hneg)] at hmoves
      exact hmoves
    · exact nomatch hpiece

theorem moves_positiveOnly (h : CallMoves moves call) :
    Moves moves fun span ↦ positiveOnly (call span) where
  toComposes := h.toComposes
  of_ok := by
    intro span machine count after hpiece
    rw [positiveOnly_eq] at hpiece
    have hle := h.returns_le span machine
    obtain ⟨hcount, rfl⟩ := Prod.mk.inj hpiece
    split_ifs at hcount with hnone
    obtain rfl := Except.ok.inj hcount
    exact ⟨by omega, h.moves_call span machine⟩
  of_error := by
    intro span machine error after hpiece
    rw [positiveOnly_eq] at hpiece
    have hmoves := h.moves_call span machine
    obtain ⟨hcount, rfl⟩ := Prod.mk.inj hpiece
    split_ifs at hcount with hnone
    rw [Int.toNat_of_nonpos hnone] at hmoves
    exact hmoves

theorem asksWithin_throughHandle (h : CallMoves moves call) (native : Bool) (operation : String)
    (failure : Answer → ErrorInfo) :
    AsksWithin fun span ↦ throughHandle native operation (call span) failure := by
  intro span machine
  dsimp only
  rw [throughHandle_eq]
  split_ifs with hnative hneg
  · exact .inl rfl
  · exact .inr (h.asks span machine)
  · exact .inr (h.asks span machine)

theorem asksWithin_positiveOnly (h : CallMoves moves call) :
    AsksWithin fun span ↦ positiveOnly (call span) := by
  intro span machine
  dsimp only
  rw [positiveOnly_eq]
  exact .inr (h.asks span machine)

end Pieces

/-! ### The loop -/

/-- The loop over pieces that move the front of their range and ask within it. -/
theorem movesExactly_transferLoop {moves : Machine → Span → Machine → Prop}
    {piece : Span → StateM Machine (Except ε ℕ)} (hmoves : Moves moves piece)
    (hasks : AsksWithin piece) (nothing : ε) :
    MovesExactly moves fun view ↦ Except.isOk <$> transferLoop nothing piece view 0 := by
  intro view before
  change (∃ requests, (transferLoop nothing piece view 0 before).2.requests = _ ∧ _) ∧
    ∃ count ≤ view.length, moves before _ (transferLoop nothing piece view 0 before).2 ∧
      ((transferLoop nothing piece view 0 before).1.isOk = true ↔ _)
  constructor
  · have hkept : Keeps (fun machine : Machine ↦ ∃ requests, machine.requests =
        before.requests ++ requests ∧ ∀ request ∈ requests, request.Within view)
        (transferLoop nothing piece view 0) := by
      refine transferLoop_keeps nothing (fun span hspan machine hmachine ↦ ?_) 0
      obtain ⟨requests, heq, hwithin⟩ := hmachine
      rcases hasks span machine with hsame | ⟨request, ⟨hstart, hend⟩, hasked⟩
      · exact ⟨requests, hsame.trans heq, hwithin⟩
      · refine ⟨requests ++ [request], by rw [hasked, heq, List.append_assoc], ?_⟩
        rw [List.forall_mem_append, List.forall_mem_singleton]
        exact ⟨hwithin, hspan.1.trans hstart, hend.trans hspan.2⟩
    obtain ⟨requests, heq, hwithin⟩ := hkept before ⟨[], (List.append_nil _).symm, by simp⟩
    have hcall : ∀ span machine,
        (piece span machine).2.requests.length ≤ machine.requests.length + 1 := by
      intro span machine
      rcases hasks span machine with hsame | ⟨request, -, hasked⟩
      · rw [hsame]
        exact Nat.le_succ _
      · rw [hasked, List.length_append]
        rfl
    have hcalls : (transferLoop nothing piece view 0 before).2.requests.length ≤
        before.requests.length + (view.length - 0) :=
      transferLoop_calls (fun machine ↦ machine.requests.length) nothing hcall 0 before
    refine ⟨requests, heq, ?_, hwithin⟩
    rw [heq, List.length_append] at hcalls
    omega
  · exact hmoves.transferLoop_moves nothing view 0 (Nat.zero_le _) before

/-! ### The six loops -/

theorem MovesExactly.mono {moves weaker : Machine → Span → Machine → Prop}
    {program : Span → StateM Machine Bool} (h : MovesExactly moves program)
    (hmoves : ∀ before span after, moves before span after → weaker before span after) :
    MovesExactly weaker program := by
  intro view before
  obtain ⟨hrequests, count, hcount, hmoved, hok⟩ := h view before
  exact ⟨hrequests, count, hcount, hmoves _ _ _ hmoved, hok⟩

/-- Both forms of the channel's loop go over calls with a 32-bit length. -/
theorem movesExactly_channel {peer : Peer} (hpeer : peer.Honest) (native : Bool)
    (operation : String) (failure : Answer → ErrorInfo) (nothing : ErrorInfo) :
    MovesExactly Sent fun view ↦ Except.isOk <$> transferLoop nothing
      (fun span ↦ throughHandle native operation
        (peer.transferOut ⟨span.start, span.length % 2 ^ 32⟩) failure) view 0 := by
  have hcalls := callMoves_shortened (callMoves_transferOut hpeer)
    fun length ↦ Nat.mod_le length (2 ^ 32)
  exact movesExactly_transferLoop (moves_throughHandle hcalls native operation failure)
    (asksWithin_throughHandle hcalls native operation failure) nothing

/-- Whatever the other side answers, as long as no call reports more than it was asked for,
each of the six loops ends, stays in its range, moves a front part of it in order, and
succeeds exactly when it has moved all of it. -/
theorem loops_moveExactly {peer : Peer} (hpeer : peer.Honest) (native : Bool) :
    MovesExactly Sent (fun data ↦ Except.isOk <$> channelTryWriteAll native peer data) ∧
    (∀ stream, MovesExactly Sent
      (fun data ↦ Except.isOk <$> channelTryWriteAllTo native peer stream data)) ∧
    MovesExactly Sent (fun data ↦ Except.isOk <$> fileTryWriteAll native peer data) ∧
    MovesExactly (Delivered peer) (fun buf ↦ Except.isOk <$> fileTryReadExact native peer buf) ∧
    MovesExactly (Delivered peer) (recvExact peer) ∧
    MovesExactly Sent (sendExact peer) := by
  have hout := callMoves_transferOut hpeer
  have hin := callMoves_transferIn hpeer
  have hdelivered : ∀ before span after, Received peer before span after →
      Delivered peer before span after := fun _ _ _ ↦ Received.delivered
  refine ⟨movesExactly_channel hpeer native _ _ _, fun stream ↦ ?_, ?_, ?_, ?_, ?_⟩
  · cases stream with
    | stdout => exact movesExactly_channel hpeer native _ _ _
    | stderr => exact movesExactly_channel hpeer native _ _ _
  · exact movesExactly_transferLoop (moves_throughHandle hout native _ _)
      (asksWithin_throughHandle hout native _ _) _
  · exact (movesExactly_transferLoop (moves_throughHandle hin native _ _)
      (asksWithin_throughHandle hin native _ _) _).mono hdelivered
  · exact (movesExactly_transferLoop (moves_positiveOnly hin) (asksWithin_positiveOnly hin)
      ()).mono hdelivered
  · exact movesExactly_transferLoop (moves_positiveOnly hout) (asksWithin_positiveOnly hout) ()

/-- A peer that moves half of what it is asked for, rounded up, and fails the third time. -/
def failsThird : Peer where
  answer := fun call asked ↦ { returns := if call = 2 then -1 else ((asked + 1) / 2 : ℕ) }

theorem loops_moveExactly_failsThird : MovesExactly Sent (sendExact failsThird) :=
  (loops_moveExactly (fun call asked ↦ by simp only [failsThird]; split_ifs <;> omega)
    true).2.2.2.2.2

end LibSshpp.Transfers
