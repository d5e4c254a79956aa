import LibSshpp.SftpServer.Handles

/-!
What is still open when `try_serve` returns. The loop ends without closing anything, so
a descriptor or stream outlives the call exactly when the client was given a handle for
it and has not named that handle in a later CLOSE request.
-/

set_option autoImplicit false
set_option relaxedAutoImplicit false

namespace LibSshpp.SftpServer

open Posix Sftp Program

/-- The handle that an event gives to the client. -/
def Event.handed : Event → Option Bytes
  | .replied (.handle handle) => some handle
  | _ => none

/-- Serving the message hands out a handle of the slot. -/
def HandsOut (table : HandleTable) (options : Options) (world : World) (message : ClientMessage)
    (slot : ℕ) : Prop :=
  ∃ events, (serveMessage table options message world).2.trace = world.trace ++ events ∧
    ∃ event ∈ events, ∃ handle, event.handed = some handle ∧ table.decode handle = some slot

/-- The message closes the slot. -/
def ClosesSlot (table : HandleTable) (message : ClientMessage) (slot : ℕ) : Prop :=
  message.type = fxpClose ∧ table.decode message.handle = some slot

/-- Every handle that is handed out in the conversation is named by a later CLOSE
request. -/
def ClosesEachHandle (table : HandleTable) (options : Options) (messages : List ClientMessage)
    (world : World) : Prop :=
  ∀ before message after, messages = before ++ message :: after →
    ∀ slot, HandsOut table options (stateAfter (serveMessage table options) before world)
        message slot →
      ∃ later ∈ after, ClosesSlot table later slot

/-! ### The slots along one request -/

/-- No handle has been handed out since `start`. -/
def NoHandleSince : World → World → Prop := Since fun event ↦ event.handed = none

/-- The table is as it was at `start`, and no handle has been handed out. -/
def Untouched (start world : World) : Prop :=
  world.slots = start.slots ∧ NoHandleSince start world

/-- A free slot of `start` has been filled, and the handle leads to it. -/
def Filled (table : HandleTable) (start : World) (handle : Bytes) (world : World) : Prop :=
  ∃ slot entry, start.slots slot = none ∧
    world.slots = Function.update start.slots slot (some entry) ∧ table.decode handle = some slot

/-- A slot has been filled and its handle handed out. -/
def Granted (table : HandleTable) (start world : World) : Prop :=
  ∃ handle events, Filled table start handle world ∧ world.trace = start.trace ++ events ∧
    events.filterMap Event.handed = [handle]

def slotStages (table : HandleTable) (start : World) : Stages where
  pending := Untouched start
  fresh _ _ := Untouched start
  holding _ := Untouched start
  granted handle world := Filled table start handle world ∧ NoHandleSince start world
  reading := Untouched start
  named _ := True
  done world := Untouched start world ∨ Granted table start world

theorem perform_untouched {α : Type} (start : World) (call : PosixCall)
    (op : World → Except Errno (Done α)) : Keeps (Untouched start) (perform call op) :=
  perform_triple (fun _ _ h ↦ ⟨h.1, h.2.concat rfl rfl⟩) fun _ _ h _ ↦ ⟨h.1, h.2.concat rfl rfl⟩

theorem closeHandle_slots (entry : HandleEntry) (world : World) :
    (closeHandle entry world).2.slots = world.slots := by
  unfold closeHandle
  split_ifs <;> rfl

theorem filterMap_handed {events : List Event} (h : ∀ event ∈ events, event.handed = none) :
    events.filterMap Event.handed = [] :=
  List.filterMap_eq_nil_iff.mpr h

theorem slotRules (table : HandleTable) (options : Options) {message : ClientMessage}
    (htype : message.type ≠ fxpClose) (start : World) :
    RequestRules table options message start (slotStages table start) where
  canonical path := by
    intro world h
    refine ⟨?_, weaklyCanonical_since path world h.2⟩
    unfold weaklyCanonical
    split <;> exact h.1
  reply answer _ hhandle := by
    intro world h
    refine Or.inl ⟨h.1, h.2.concat ?_ rfl⟩
    cases answer with
    | handle handle => exact absurd rfl (hhandle handle)
    | _ => rfl
  lstat _ := keepsAt (perform_untouched _ _ _)
  stat _ := keepsAt (perform_untouched _ _ _)
  readlink _ := keepsAt (perform_untouched _ _ _)
  statEntry _ _ := keepsAt (perform_untouched _ _ _)
  fstat _ _ := keepsAt (perform_untouched _ _ _)
  pread _ _ _ _ := keepsAt (perform_untouched _ _ _)
  pwrite _ _ _ _ _ _ := keepsAt (perform_untouched _ _ _)
  read _ _ _ _ _ h := h.1
  readdir _ _ _ _ :=
    readdir_triple (fun _ h ↦ ⟨⟨h.1, h.2.concat rfl rfl⟩, fun _ _ ↦ trivial⟩)
      fun _ _ h _ ↦ ⟨⟨h.1, h.2.concat rfl rfl⟩, fun _ _ ↦ trivial⟩
  lstatChild _ _ _ _ _ _ := perform_untouched _ _ _
  collect _ _ _ := fun _ h ↦ ⟨h.1, h.2.concat rfl rfl⟩
  listed _ h := h
  openFile _ _ _ := openFile_triple (fun _ _ h ↦ ⟨h.1.1, h.1.2.concat rfl rfl⟩)
    fun _ _ h _ ↦ ⟨h.1.1, Since.concat (h.1.2.concat rfl rfl) rfl rfl⟩
  opendir _ := opendir_triple (fun _ _ h ↦ ⟨h.1.1, h.1.2.concat rfl rfl⟩)
    fun _ _ h _ ↦ ⟨h.1.1, Since.concat (h.1.2.concat rfl rfl) rfl rfl⟩
  newAddress _ _ := fun _ h ↦ h
  alloc entry := alloc_triple (fun _ h ↦ h) fun world slot h hslot hfree ↦
    ⟨⟨slot, entry, h.1 ▸ hfree, by rw [← h.1], table.decode_encode hslot⟩, h.2⟩
  abandon entry := fun world h ↦
    ⟨(closeHandle_slots entry world).trans h.1,
      closeHandle_since (fun _ ↦ rfl) entry world h.2⟩
  grant handle := by
    intro world ⟨hfilled, events, htrace, hnone⟩
    refine Or.inr ⟨handle, events ++ [.replied (.handle handle)], hfilled, ?_, ?_⟩
    · change world.trace ++ _ = _
      rw [htrace, List.append_assoc]
    · rw [List.filterMap_append, filterMap_handed hnone]
      rfl
  release hclose := absurd hclose htype
  unlink _ _ _ := keepsAt (perform_untouched _ _ _)
  mkdir _ _ _ _ := keepsAt (perform_untouched _ _ _)
  rmdir _ _ _ _ := keepsAt (perform_untouched _ _ _)
  rename _ _ _ _ _ _ := keepsAt (perform_untouched _ _ _)
  symlink _ _ _ _ := keepsAt (perform_untouched _ _ _)

/-! ### A CLOSE request -/

variable {table : HandleTable}

theorem serveClose_handsOut_nothing (table : HandleTable) (message : ClientMessage)
    (start : World) :
    Keeps (NoHandleSince start) (serveClose table message) := by
  have hreply : Keeps (NoHandleSince start) (replyStatus .ok "") := fun _ h ↦ h.concat rfl rfl
  have hlookup : Keeps (NoHandleSince start) (table.sftpHandle message.handle) := fun _ h ↦ h
  refine Keeps.bind hlookup fun result ↦ ?_
  cases result with
  | none => exact hreply
  | some entry =>
    refine Keeps.bind (remove_since table entry) fun _ ↦ Keeps.bind ?_ fun _ ↦ hreply
    exact closeHandle_since (fun _ ↦ rfl) entry

/-- A CLOSE request frees the slot it names and no other. -/
theorem serveClose_slots {world : World} (h : Ledger table none world) (message : ClientMessage)
    (slot : ℕ) :
    (serveClose table message world).2.slots slot = none ↔
      world.slots slot = none ∨ table.decode message.handle = some slot := by
  rcases hlookup : (table.decode message.handle).bind world.slots with _ | entry
  · have hslots : (serveClose table message world).2.slots = world.slots := by
      have hhandle : table.sftpHandle message.handle world = (none, world) :=
        Prod.ext hlookup rfl
      rw [serveClose, bind_of_eq hhandle]
      rfl
    rw [hslots]
    refine ⟨Or.inl, fun hor ↦ hor.elim id fun hdecode ↦ ?_⟩
    rwa [hdecode, Option.bind_some] at hlookup
  · obtain ⟨found, hdecode, hfound⟩ := Option.bind_eq_some_iff.mp hlookup
    have hslots : (serveClose table message world).2.slots =
        Function.update world.slots found none := by
      have hhandle : table.sftpHandle message.handle world = (some entry, world) :=
        Prod.ext hlookup rfl
      rw [serveClose, bind_of_eq hhandle]
      change (closeHandle entry (table.sftpHandleRemove entry world).2).2.slots = _
      rw [closeHandle_slots, HandleTable.sftpHandleRemove, slotOf_eq h hfound]
    rw [hslots, hdecode]
    by_cases heq : slot = found
    · simp [heq]
    · rw [Function.update_of_ne heq]
      simp [Ne.symm heq]

/-! ### One message -/

/-- A message whose events hand nothing out. -/
theorem not_handsOut {options : Options} {world : World} {message : ClientMessage}
    (h : NoHandleSince world (serveMessage table options message world).2) (slot : ℕ) :
    ¬ HandsOut table options world message slot := by
  rintro ⟨events, htrace, event, hevent, handle, hhanded, -⟩
  obtain ⟨others, hothers, hnone⟩ := h
  rw [htrace] at hothers
  rw [List.append_cancel_left hothers] at hevent
  exact nomatch (hnone event hevent).symm.trans hhanded

theorem serveRequest_of_close (options : Options) {message : ClientMessage}
    (htype : message.type = fxpClose) :
    serveRequest table options message = serveClose table message := by
  unfold serveRequest
  simp only [htype]
  rfl

/-- A CLOSE request frees the slot it names and hands nothing out. -/
theorem serveMessage_slot_of_close {world : World} (h : Ledger table none world)
    (options : Options) {message : ClientMessage} (htype : message.type = fxpClose) (slot : ℕ) :
    ((serveMessage table options message world).2.slots slot = none ↔
      world.slots slot = none ∨ ClosesSlot table message slot) ∧
        ¬ HandsOut table options world message slot := by
  have hreceived : Ledger table none (world.log (.received message)) := h.log rfl trivial
  have hrefl : NoHandleSince world world := since_refl _ _
  have hbegin : NoHandleSince world (world.log (.received message)) := hrefl.concat rfl rfl
  have hserve : (serveMessage table options message world).2 =
      (serveClose table message (world.log (.received message))).2.log (.freed message) := by
    rw [← serveRequest_of_close options htype]
    rfl
  have hnone : NoHandleSince world (serveMessage table options message world).2 := by
    rw [hserve]
    exact (serveClose_handsOut_nothing table message world _ hbegin).concat rfl rfl
  have hslots := serveClose_slots hreceived message slot
  refine ⟨?_, not_handsOut hnone slot⟩
  rw [hserve]
  exact hslots.trans (or_congr_right ⟨fun hdecode ↦ ⟨htype, hdecode⟩, fun hclose ↦ hclose.2⟩)

/-- The slot of the one handle that a message hands out. -/
theorem handsOut_iff {options : Options} {world : World} {message : ClientMessage}
    {events : List Event}
    (htrace : (serveMessage table options message world).2.trace = world.trace ++ events)
    {handle : Bytes} (hhanded : events.filterMap Event.handed = [handle]) {found : ℕ}
    (hdecode : table.decode handle = some found) (slot : ℕ) :
    HandsOut table options world message slot ↔ slot = found := by
  constructor
  · rintro ⟨others, hothers, event, hevent, other, hother, hslot⟩
    rw [htrace] at hothers
    rw [← List.append_cancel_left hothers] at hevent
    have hmem := List.mem_filterMap.mpr ⟨event, hevent, hother⟩
    rw [hhanded, List.mem_singleton] at hmem
    rw [hmem, hdecode] at hslot
    exact (Option.some.inj hslot).symm
  · rintro rfl
    have hmem : handle ∈ events.filterMap Event.handed := by
      rw [hhanded]
      exact List.mem_singleton_self handle
    obtain ⟨event, hevent, hgives⟩ := List.mem_filterMap.mp hmem
    exact ⟨events, htrace, event, hevent, handle, hgives, hdecode⟩

theorem filterMap_turn (message : ClientMessage) (events : List Event) :
    (Event.received message :: (events ++ [Event.freed message])).filterMap Event.handed =
      events.filterMap Event.handed := by
  rw [List.filterMap_cons_none rfl, List.filterMap_append, List.filterMap_cons_none rfl,
    List.filterMap_nil, List.append_nil]

/-- Any other message frees no slot, and fills at most the one whose handle it hands out. -/
theorem serveMessage_slot_of_not_close (options : Options) {message : ClientMessage}
    (htype : message.type ≠ fxpClose) (world : World) (slot : ℕ) :
    (serveMessage table options message world).2.slots slot = none ↔
      world.slots slot = none ∧ ¬ HandsOut table options world message slot := by
  rcases (slotRules table options htype (world.log (.received message))).request _
      ⟨⟨rfl, since_refl _ _⟩, quiet_refl _⟩ with
    ⟨hslots, events, htrace, hnone⟩ |
    ⟨handle, events, ⟨found, entry, hfree, hslots, hdecode⟩, htrace, hhanded⟩
  · have hsame : (serveMessage table options message world).2.slots = world.slots := hslots
    have hquiet : ¬ HandsOut table options world message slot := by
      rintro ⟨others, hothers, event, hevent, handle, hgives, -⟩
      rw [serveMessage_trace htrace] at hothers
      rw [← List.append_cancel_left hothers] at hevent
      have hmem := List.mem_filterMap.mpr ⟨event, hevent, hgives⟩
      rw [filterMap_turn, filterMap_handed hnone] at hmem
      exact List.not_mem_nil hmem
    rw [hsame]
    exact ⟨fun hfree ↦ ⟨hfree, hquiet⟩, fun hfree ↦ hfree.1⟩
  · have hfilled : (serveMessage table options message world).2.slots =
        Function.update world.slots found (some entry) := hslots
    rw [hfilled, handsOut_iff (serveMessage_trace htrace)
      ((filterMap_turn message events).trans hhanded) hdecode]
    by_cases heq : slot = found
    · simp [heq]
    · rw [Function.update_of_ne heq]
      exact ⟨fun hfree ↦ ⟨hfree, heq⟩, fun hfree ↦ hfree.1⟩

/-- What a message does to a slot: it is free afterwards exactly if it was free or the
message closes it, and no handle for it is handed out. -/
theorem serveMessage_slot {world : World} (h : Ledger table none world) (options : Options)
    (message : ClientMessage) (slot : ℕ) :
    (serveMessage table options message world).2.slots slot = none ↔
      (world.slots slot = none ∨ ClosesSlot table message slot) ∧
        ¬ HandsOut table options world message slot := by
  by_cases htype : message.type = fxpClose
  · obtain ⟨hslots, hnone⟩ := serveMessage_slot_of_close h options htype slot
    rw [hslots]
    exact ⟨fun hfree ↦ ⟨hfree, hnone⟩, fun hfree ↦ hfree.1⟩
  · have hnotClose : ¬ ClosesSlot table message slot := fun hclose ↦ htype hclose.1
    rw [serveMessage_slot_of_not_close options htype, or_iff_left hnotClose]

/-! ### The conversation -/

/-- The slots after a conversation: one is free exactly if it is closed after it was last
filled. -/
theorem stateAfter_slot (options : Options) (messages : List ClientMessage) {world : World}
    (h : Ledger table none world) (slot : ℕ) :
    (stateAfter (serveMessage table options) messages world).slots slot = none ↔
      (world.slots slot = none ∨ ∃ message ∈ messages, ClosesSlot table message slot) ∧
        ∀ before message after, messages = before ++ message :: after →
          HandsOut table options (stateAfter (serveMessage table options) before world)
              message slot →
            ∃ later ∈ after, ClosesSlot table later slot := by
  induction messages generalizing world with
  | nil => simp
  | cons message messages ih =>
    rw [stateAfter_cons, ih (serveMessage_ledger table options message world h),
      serveMessage_slot h]
    constructor
    · rintro ⟨hfree, hlater⟩
      refine ⟨?_, ?_⟩
      · rcases hfree with ⟨hfree | hclose, -⟩ | ⟨later, hmem, hclose⟩
        · exact Or.inl hfree
        · exact Or.inr ⟨message, List.mem_cons_self, hclose⟩
        · exact Or.inr ⟨later, List.mem_cons_of_mem _ hmem, hclose⟩
      · intro before other after heq hgrant
        cases before with
        | nil =>
          obtain ⟨rfl, rfl⟩ := List.cons.inj heq
          rcases hfree with ⟨-, hnot⟩ | hclosed
          · exact absurd hgrant hnot
          · exact hclosed
        | cons first before =>
          obtain ⟨rfl, rfl⟩ := List.cons.inj heq
          exact hlater before other after rfl hgrant
    · rintro ⟨hfree, hlater⟩
      refine ⟨?_, ?_⟩
      · by_cases hgrant : HandsOut table options world message slot
        · exact Or.inr (hlater [] message messages rfl hgrant)
        · rcases hfree with hfree | ⟨later, hmem, hclose⟩
          · exact Or.inl ⟨Or.inl hfree, hgrant⟩
          · rcases List.mem_cons.mp hmem with rfl | hmem
            · exact Or.inl ⟨Or.inr hclose, hgrant⟩
            · exact Or.inr ⟨later, hmem, hclose⟩
      · intro before other after heq hgrant
        exact hlater (message :: before) other after (by rw [heq, List.cons_append]) hgrant

/-- When `try_serve` returns, everything it opened is closed exactly if the client has
closed every handle that it was given. -/
theorem tryServe_closes_all_iff (table : HandleTable) (options : Options) (startup : Startup)
    (messages : List ClientMessage) (fs : FileSystem) (fds : List (ℤ × OpenFile))
    (streams : List (ℕ × DirStream)) (faults : List Fault) :
    outstanding (tryServe table options startup messages
        (World.begin fs fds streams faults)).2.trace = ∅ ↔
      ClosesEachHandle table options (startup.served messages)
        (World.begin fs fds streams faults) := by
  have hbegin := ledger_begin table fs fds streams faults
  have hledger := tryServe_ledger table options startup messages fs fds streams faults
  rw [tryServe_world] at hledger ⊢
  have hempty : outstanding (stateAfter (serveMessage table options) (startup.served messages)
      (World.begin fs fds streams faults)).trace = ∅ ↔
        ∀ slot, (stateAfter (serveMessage table options) (startup.served messages)
          (World.begin fs fds streams faults)).slots slot = none := by
    constructor
    · intro hnone slot
      by_contra hlive
      have hmem := hledger.bijOn.mapsTo hlive
      simp [hnone] at hmem
    · intro hfree
      refine Finset.eq_empty_of_forall_notMem fun resource hresource ↦ ?_
      obtain ⟨slot, entry, hentry, -⟩ := (hledger.covered resource hresource).resolve_left (by simp)
      exact nomatch (hfree slot).symm.trans hentry
  rw [hempty]
  constructor
  · intro hfree before message after heq slot hgrant
    have hslot := (stateAfter_slot options _ hbegin slot).mp (hfree slot)
    exact hslot.2 before message after heq hgrant
  · intro hcloses slot
    refine (stateAfter_slot options _ hbegin slot).mpr ⟨Or.inl rfl, ?_⟩
    intro before message after heq hgrant
    exact hcloses before message after heq slot hgrant

/-- The server of `/srv`. -/
def srvServer : Options := { root := ⟨true, [ascii "srv"]⟩ }

/-- A file system with the file `/srv/f`. -/
def singleFile : FileSystem where
  tree := {
    nodes := ⟨[⟨[], .dir 0⟩, ⟨[ascii "srv"], .dir 1⟩, ⟨[ascii "srv", ascii "f"], .file 2⟩],
      by unfold List.NodupKeys; decide⟩
    root := by decide
    parent := by decide
    proper := by decide }
  inodes := [{}, {}, { data := ascii "hello" }]

/-- A client that opens a file and hangs up leaves its descriptor open. -/
theorem open_then_end_leaks :
    outstanding (tryServe HandleTable.firstFree srvServer {}
      [{ type := fxpOpen, filename := some (ascii "f"), flags := fxfRead }]
      (World.begin singleFile [] [] [])).2.trace ≠ ∅ := by
  decide +kernel

end LibSshpp.SftpServer
