import LibSshpp.SftpServer.RequestRules
import Mathlib.Data.Finset.Basic
import Mathlib.Data.Set.Function

/-!
The handle table and the resources behind it. A ledger of the descriptors and
directory streams that have been opened and not yet closed is read off the trace; in
every state between two messages the live slots of the table are in bijection with it.
In the course of a request one resource may be loose: opened, and not yet or no longer
in the table.
-/

set_option autoImplicit false
set_option relaxedAutoImplicit false

namespace LibSshpp.SftpServer

open Posix Sftp Program

/-! ### The ledger -/

/-- The open resources after an event. -/
def Event.settle (opened : Finset Resource) : Event → Finset Resource
  | .opened resource => insert resource opened
  | .closed resource => opened.erase resource
  | _ => opened

/-- What has been opened and not yet closed. -/
def outstanding (events : List Event) : Finset Resource := events.foldl Event.settle ∅

/-- The resource a call works on. -/
def PosixCall.uses : PosixCall → Option Resource
  | .fstat fd | .pread fd | .pwrite fd => some (.fd fd)
  | .readdir stream => some (.stream stream)
  | _ => none

/-- An event that opens something new, closes something open, or works on nothing that is
not open. -/
def Event.Orderly (opened : Finset Resource) : Event → Prop
  | .opened resource => resource ∉ opened
  | .closed resource => resource ∈ opened
  | .called call _ => ∀ resource, call.uses = some resource → resource ∈ opened
  | _ => True

/-- Every event is orderly at its time: what is closed was open, so that nothing is closed
twice, and no call works on something closed or of the other kind. -/
def Orderly (events : List Event) : Prop :=
  ∀ before event after, events = before ++ event :: after → event.Orderly (outstanding before)

theorem outstanding_concat (events : List Event) (event : Event) :
    outstanding (events ++ [event]) = event.settle (outstanding events) := by
  simp [outstanding]

theorem Orderly.concat {events : List Event} (h : Orderly events) {event : Event}
    (hevent : event.Orderly (outstanding events)) : Orderly (events ++ [event]) := by
  intro before other after heq
  rcases after.eq_nil_or_concat' with rfl | ⟨upper, last, rfl⟩
  · obtain ⟨rfl, hlast⟩ := List.append_inj' heq rfl
    rw [← List.singleton_inj.mp hlast]
    exact hevent
  · have hcut : events = before ++ other :: upper := by
      rw [← List.cons_append, ← List.append_assoc] at heq
      exact (List.append_inj' heq rfl).1
    exact h before other upper hcut

/-! ### The invariant -/

def HandleEntry.resource (entry : HandleEntry) : Resource :=
  if entry.isDir then .stream entry.dir else .fd entry.fd

/-- `close_handle` closes the resource of the entry. -/
def HandleEntry.Closable (entry : HandleEntry) : Prop :=
  if entry.isDir then entry.dir ≠ 0 else 0 ≤ entry.fd

/-- The resource is known to the kernel. -/
def World.Knows (world : World) : Resource → Prop
  | .fd number => number ∈ world.fds.map Prod.fst
  | .stream address => address ∈ world.streams.map Prod.fst

/-- The table and the ledger agree but for a loose resource. -/
structure Ledger (table : HandleTable) (loose : Option Resource) (world : World) : Prop where
  orderly : Orderly world.trace
  known : ∀ resource ∈ outstanding world.trace, world.Knows resource
  inTable : ∀ slot entry, world.slots slot = some entry →
    slot < table.size ∧ entry.Closable ∧ entry.address < world.nextAddress ∧
      entry.resource ∈ outstanding world.trace ∧ loose ≠ some entry.resource
  resource_inj : ∀ first second entry other, world.slots first = some entry →
    world.slots second = some other → entry.resource = other.resource → first = second
  address_inj : ∀ first second entry other, world.slots first = some entry →
    world.slots second = some other → entry.address = other.address → first = second
  covered : ∀ resource ∈ outstanding world.trace,
    loose = some resource ∨ ∃ slot entry, world.slots slot = some entry ∧
      entry.resource = resource
  isLoose : ∀ resource, loose = some resource → resource ∈ outstanding world.trace

namespace Ledger

variable {table : HandleTable} {loose : Option Resource} {world : World}

/-- The ledger depends on the kernel's tables, the slots and the trace only. -/
theorem transfer (h : Ledger table loose world) {after : World}
    (hknows : ∀ resource, world.Knows resource → after.Knows resource)
    (hslots : after.slots = world.slots) (haddress : world.nextAddress ≤ after.nextAddress)
    (htrace : after.trace = world.trace) : Ledger table loose after := by
  constructor
  · rw [htrace]
    exact h.orderly
  · rw [htrace]
    exact fun resource hresource ↦ hknows resource (h.known resource hresource)
  · rw [hslots, htrace]
    intro slot entry hentry
    obtain ⟨hslot, hclosable, hold, hrest⟩ := h.inTable slot entry hentry
    exact ⟨hslot, hclosable, hold.trans_le haddress, hrest⟩
  · rw [hslots]
    exact h.resource_inj
  · rw [hslots]
    exact h.address_inj
  · rw [hslots, htrace]
    exact h.covered
  · rw [htrace]
    exact h.isLoose

/-- An event that opens and closes nothing. -/
theorem log (h : Ledger table loose world) {event : Event}
    (hsettle : event.settle (outstanding world.trace) = outstanding world.trace)
    (horderly : event.Orderly (outstanding world.trace)) :
    Ledger table loose (world.log event) := by
  have hsame : outstanding (world.log event).trace = outstanding world.trace :=
    (outstanding_concat world.trace event).trans hsettle
  refine ⟨h.orderly.concat horderly, ?_, ?_, h.resource_inj, h.address_inj, ?_, ?_⟩
  · rw [hsame]
    exact h.known
  · rw [hsame]
    exact h.inTable
  · rw [hsame]
    exact h.covered
  · rw [hsame]
    exact h.isLoose

/-- A call on nothing, or on something open. -/
theorem called (h : Ledger table loose world) {after : World} {call : PosixCall}
    {touched : List Loc} (hknows : ∀ resource, world.Knows resource → after.Knows resource)
    (hslots : after.slots = world.slots) (haddress : after.nextAddress = world.nextAddress)
    (htrace : after.trace = world.trace ++ [.called call touched])
    (huses : ∀ resource, call.uses = some resource → resource ∈ outstanding world.trace) :
    Ledger table loose after := by
  have hlog : Ledger table loose (world.log (.called call touched)) := h.log rfl huses
  refine hlog.transfer hknows hslots haddress.ge htrace

/-- A call that leaves the kernel's tables alone. -/
theorem passed (h : Ledger table loose world) {call : PosixCall}
    (huses : ∀ resource, call.uses = some resource → resource ∈ outstanding world.trace)
    (fs : FileSystem) (touched : List Loc) :
    Ledger table loose (world.called call fs touched) :=
  h.called (fun _ h ↦ h) rfl rfl rfl huses

/-- A call on a path. -/
theorem passedPath (h : Ledger table loose world) {call : PosixCall} (huses : call.uses = none)
    (fs : FileSystem) (touched : List Loc) :
    Ledger table loose (world.called call fs touched) :=
  h.passed (fun _ hresource ↦ nomatch huses.symm.trans hresource) fs touched

/-- A newly opened resource is loose. -/
theorem opened (h : Ledger table none world) {resource : Resource} {after : World}
    (hnew : ¬ world.Knows resource) (hknows : ∀ other, world.Knows other → after.Knows other)
    (hresource : after.Knows resource) (hslots : after.slots = world.slots)
    (haddress : after.nextAddress = world.nextAddress)
    (htrace : after.trace = world.trace ++ [.opened resource]) :
    Ledger table (some resource) after := by
  have hfresh : resource ∉ outstanding world.trace := fun hmem ↦ hnew (h.known resource hmem)
  have hset : outstanding after.trace = insert resource (outstanding world.trace) := by
    rw [htrace, outstanding_concat]
    rfl
  constructor
  · rw [htrace]
    exact h.orderly.concat hfresh
  · intro other hother
    rw [hset, Finset.mem_insert] at hother
    rcases hother with rfl | hother
    · exact hresource
    · exact hknows other (h.known other hother)
  · intro slot entry hentry
    rw [hslots] at hentry
    obtain ⟨hslot, hclosable, hold, hmem, -⟩ := h.inTable slot entry hentry
    rw [hset, haddress]
    refine ⟨hslot, hclosable, hold, Finset.mem_insert_of_mem hmem, ?_⟩
    intro heq
    rw [Option.some.inj heq] at hfresh
    exact hfresh hmem
  · rw [hslots]
    exact h.resource_inj
  · rw [hslots]
    exact h.address_inj
  · intro other hother
    rw [hset, Finset.mem_insert] at hother
    rw [hslots]
    rcases hother with rfl | hother
    · exact Or.inl rfl
    · exact Or.inr ((h.covered other hother).resolve_left (by simp))
  · intro other hother
    rw [hset, ← Option.some.inj hother]
    exact Finset.mem_insert_self _ _

/-- Closing the loose resource settles the ledger. -/
theorem closed {resource : Resource} (h : Ledger table (some resource) world) {after : World}
    (hknows : ∀ other, other ≠ resource → world.Knows other → after.Knows other)
    (hslots : after.slots = world.slots) (haddress : after.nextAddress = world.nextAddress)
    (htrace : after.trace = world.trace ++ [.closed resource]) : Ledger table none after := by
  have hset : outstanding after.trace = (outstanding world.trace).erase resource := by
    rw [htrace, outstanding_concat]
    rfl
  constructor
  · rw [htrace]
    exact h.orderly.concat (h.isLoose resource rfl)
  · intro other hother
    rw [hset, Finset.mem_erase] at hother
    exact hknows other hother.1 (h.known other hother.2)
  · intro slot entry hentry
    rw [hslots] at hentry
    obtain ⟨hslot, hclosable, hold, hmem, hloose⟩ := h.inTable slot entry hentry
    rw [hset, haddress]
    refine ⟨hslot, hclosable, hold, Finset.mem_erase.mpr ⟨?_, hmem⟩, by simp⟩
    exact fun heq ↦ hloose (by rw [heq])
  · rw [hslots]
    exact h.resource_inj
  · rw [hslots]
    exact h.address_inj
  · intro other hother
    rw [hset, Finset.mem_erase] at hother
    rw [hslots]
    rcases h.covered other hother.2 with heq | hentry
    · exact absurd (Option.some.inj heq).symm hother.1
    · exact Or.inr hentry
  · exact fun _ heq ↦ nomatch heq

/-- Storing the entry of the loose resource in a free slot. -/
theorem stored {entry : HandleEntry} (h : Ledger table (some entry.resource) world)
    (hclosable : entry.Closable) (haddress : entry.address < world.nextAddress)
    (hunused : ∀ slot other, world.slots slot = some other → other.address ≠ entry.address)
    {slot : ℕ} (hslot : slot < table.size) (hfree : world.slots slot = none) :
    Ledger table none
      { world.dropFault with slots := Function.update world.slots slot (some entry) } := by
  have hcases : ∀ place other, Function.update world.slots slot (some entry) place = some other →
      place = slot ∧ other = entry ∨ world.slots place = some other := by
    intro place other hother
    by_cases heq : place = slot
    · rw [heq, Function.update_self] at hother
      exact Or.inl ⟨heq, (Option.some.inj hother).symm⟩
    · rw [Function.update_of_ne heq] at hother
      exact Or.inr hother
  have hloose : ∀ place other, world.slots place = some other →
      other.resource ≠ entry.resource := by
    intro place other hother heq
    exact (h.inTable place other hother).2.2.2.2 (by rw [heq])
  constructor
  · exact h.orderly
  · exact h.known
  · intro place other hother
    rcases hcases place other hother with ⟨rfl, rfl⟩ | hother
    · exact ⟨hslot, hclosable, haddress, h.isLoose _ rfl, by simp⟩
    · obtain ⟨hplace, hcl, hold, hmem, -⟩ := h.inTable place other hother
      exact ⟨hplace, hcl, hold, hmem, by simp⟩
  · intro first second one other hone hother heq
    rcases hcases first one hone with ⟨rfl, rfl⟩ | hfirst
    · rcases hcases second other hother with ⟨rfl, rfl⟩ | hsecond
      · rfl
      · exact absurd heq.symm (hloose second other hsecond)
    · rcases hcases second other hother with ⟨rfl, rfl⟩ | hsecond
      · exact absurd heq (hloose first one hfirst)
      · exact h.resource_inj first second one other hfirst hsecond heq
  · intro first second one other hone hother heq
    rcases hcases first one hone with ⟨rfl, rfl⟩ | hfirst
    · rcases hcases second other hother with ⟨rfl, rfl⟩ | hsecond
      · rfl
      · exact absurd heq.symm (hunused second other hsecond)
    · rcases hcases second other hother with ⟨rfl, rfl⟩ | hsecond
      · exact absurd heq (hunused first one hfirst)
      · exact h.address_inj first second one other hfirst hsecond heq
  · intro resource hresource
    refine Or.inr ?_
    rcases h.covered resource hresource with heq | ⟨place, other, hother, hresource⟩
    · exact ⟨slot, entry, Function.update_self .., Option.some.inj heq⟩
    · refine ⟨place, other, ?_, hresource⟩
      rw [← hother]
      refine Function.update_of_ne ?_ _ _
      rintro rfl
      exact nomatch hfree.symm.trans hother
  · exact fun _ heq ↦ nomatch heq

/-- Taking an entry out of the table makes its resource loose. -/
theorem removed (h : Ledger table none world) {slot : ℕ} {entry : HandleEntry}
    (hentry : world.slots slot = some entry) :
    Ledger table (some entry.resource)
      { world with slots := Function.update world.slots slot none } := by
  have hcases : ∀ place other, Function.update world.slots slot none place = some other →
      place ≠ slot ∧ world.slots place = some other := by
    intro place other hother
    have hne : place ≠ slot := by
      rintro rfl
      rw [Function.update_self] at hother
      exact nomatch hother
    rw [Function.update_of_ne hne] at hother
    exact ⟨hne, hother⟩
  constructor
  · exact h.orderly
  · exact h.known
  · intro place other hother
    obtain ⟨hne, hother⟩ := hcases place other hother
    obtain ⟨hplace, hcl, hold, hmem, -⟩ := h.inTable place other hother
    refine ⟨hplace, hcl, hold, hmem, fun heq ↦ hne ?_⟩
    exact h.resource_inj place slot other entry hother hentry (Option.some.inj heq).symm
  · intro first second one other hone hother
    exact h.resource_inj first second one other (hcases first one hone).2
      (hcases second other hother).2
  · intro first second one other hone hother
    exact h.address_inj first second one other (hcases first one hone).2
      (hcases second other hother).2
  · intro resource hresource
    obtain ⟨place, other, hother, heq⟩ := (h.covered resource hresource).resolve_left (by simp)
    by_cases hplace : place = slot
    · rw [hplace, hentry] at hother
      rw [← heq, Option.some.inj hother]
      exact Or.inl rfl
    · refine Or.inr ⟨place, other, ?_, heq⟩
      rw [← hother]
      exact Function.update_of_ne hplace _ _
  · intro resource heq
    rw [← Option.some.inj heq]
    exact (h.inTable slot entry hentry).2.2.2.1

end Ledger

/-! ### Descriptors and streams -/

theorem lowestFree_notMem (used : List ℕ) : lowestFree used ∉ used := by
  unfold lowestFree
  rcases hfind : (List.range (used.length + 1)).find? fun number ↦ number ∉ used with _ | number
  · -- the first `used.length + 1` numbers cannot all be in use
    rw [List.find?_eq_none] at hfind
    have hsub : List.range (used.length + 1) ⊆ used := by
      intro number hnumber
      simpa using hfind number hnumber
    have hlength := (List.nodup_range.subperm hsub).length_le
    rw [List.length_range] at hlength
    exact absurd hlength (Nat.not_succ_le_self _)
  · simpa using List.find?_some hfind

variable {table : HandleTable}

theorem newDescriptor_notMem (file : OpenFile) (world : World) :
    (newDescriptor file world).1 ∉ world.fds.map Prod.fst := by
  intro hmem
  obtain ⟨fd, hfd, heq⟩ := List.mem_map.mp hmem
  refine lowestFree_notMem (world.fds.map fun fd ↦ fd.1.toNat) (List.mem_map.mpr ⟨fd, hfd, ?_⟩)
  rw [heq]
  rfl

theorem newStream_notMem (stream : DirStream) (world : World) :
    (newStream stream world).1 ∉ 0 :: world.streams.map Prod.fst :=
  lowestFree_notMem _

theorem newDescriptor_ledger {world : World} (h : Ledger table none world) (file : OpenFile) :
    Ledger table (some (.fd (newDescriptor file world).1)) (newDescriptor file world).2 := by
  refine h.opened (newDescriptor_notMem file world) ?_ ?_ rfl rfl rfl
  · intro other hother
    cases other with
    | fd number => exact List.mem_cons_of_mem _ hother
    | stream address => exact hother
  · exact List.mem_cons_self

theorem newStream_ledger {world : World} (h : Ledger table none world) (stream : DirStream) :
    Ledger table (some (.stream (newStream stream world).1)) (newStream stream world).2 := by
  refine h.opened ?_ ?_ ?_ rfl rfl rfl
  · exact fun hknown ↦ newStream_notMem stream world (List.mem_cons_of_mem 0 hknown)
  · intro other hother
    cases other with
    | fd number => exact hother
    | stream address => exact List.mem_cons_of_mem _ hother
  · exact List.mem_cons_self

theorem mem_keys_filter {κ β : Type} [DecidableEq κ] {entries : List (κ × β)} {key other : κ}
    (hne : other ≠ key) (h : other ∈ entries.map Prod.fst) :
    other ∈ (entries.filter (·.1 ≠ key)).map Prod.fst := by
  obtain ⟨entry, hentry, rfl⟩ := List.mem_map.mp h
  exact List.mem_map.mpr ⟨entry, List.mem_filter.mpr ⟨hentry, by simpa using hne⟩, rfl⟩

/-- `close_handle` gives the loose resource of an entry back. -/
theorem closeHandle_ledger (entry : HandleEntry) :
    Triple (fun world ↦ Ledger table (some entry.resource) world ∧ entry.Closable)
      (closeHandle entry) fun _ ↦ Ledger table none := by
  refine Triple.of_fact fun hclosable ↦ ?_
  rw [HandleEntry.Closable] at hclosable
  unfold HandleEntry.resource closeHandle
  split_ifs at hclosable ⊢ with hdir
  · intro world h
    refine h.closed ?_ rfl rfl rfl
    intro other hne hother
    cases other with
    | fd number => exact hother
    | stream address => exact mem_keys_filter (fun heq ↦ hne (by rw [heq])) hother
  · intro world h
    refine h.closed ?_ rfl rfl rfl
    intro other hne hother
    cases other with
    | fd number => exact mem_keys_filter (fun heq ↦ hne (by rw [heq])) hother
    | stream address => exact hother

/-- The slot that `sftp_handle_remove` frees is the one that holds the entry. -/
theorem slotOf_eq {world : World} (h : Ledger table none world) {slot : ℕ} {entry : HandleEntry}
    (hentry : world.slots slot = some entry) :
    table.slotOf world.slots entry.address = some slot := by
  have hsome : (table.slotOf world.slots entry.address).isSome = true := by
    rw [HandleTable.slotOf, List.find?_isSome]
    exact ⟨slot, List.mem_range.mpr (h.inTable slot entry hentry).1, by simp [hentry]⟩
  obtain ⟨found, hfound⟩ := Option.isSome_iff_exists.mp hsome
  have hholds := List.find?_some hfound
  obtain ⟨other, hother, haddress⟩ := (Option.any_eq_true ..).mp hholds
  rw [hfound, h.address_inj found slot other entry hother hentry (by simpa using haddress)]

/-! ### One request -/

/-- The handle of a message leads to a live slot. -/
theorem Held.slot {message : ClientMessage} {start : World} {entry : HandleEntry}
    (h : Held table message start entry) : ∃ slot, start.slots slot = some entry := by
  obtain ⟨slot, -, hslot⟩ := Option.bind_eq_some_iff.mp h
  exact ⟨slot, hslot⟩

/-- The stages of a request in terms of the ledger. -/
def ledgerStages (table : HandleTable) (start : World) : Stages where
  pending := Ledger table none
  fresh resource path world :=
    Ledger table (some resource) world ∧ (resource.entry path 0).Closable
  holding entry world :=
    (Ledger table (some entry.resource) world ∧ entry.Closable) ∧
      entry.address < world.nextAddress ∧
        ∀ slot other, world.slots slot = some other → other.address ≠ entry.address
  granted _ := Ledger table none
  reading world := Ledger table none world ∧ world.slots = start.slots
  named _ := True
  done := Ledger table none

theorem perform_ledger {α : Type} {call : PosixCall} (op : World → Except Errno (Done α))
    {pre : World → Prop} (hpre : ∀ world, pre world → Ledger table none world)
    (huses : ∀ world, pre world → ∀ resource, call.uses = some resource →
      resource ∈ outstanding world.trace) :
    Triple pre (perform call op) fun _ ↦ Ledger table none := by
  refine perform_triple (fun world _ h ↦ ?_) fun world done h _ ↦ ?_
  · exact (hpre world h).passed (huses world h) _ _
  · exact (hpre world h).passed (huses world h) _ _

/-- A call on a path. -/
theorem performPath_ledger {α : Type} {start : World} {call : PosixCall}
    (huses : call.uses = none) (op : World → Except Errno (Done α)) :
    Triple (At start (Ledger table none)) (perform call op) fun _ ↦ Ledger table none :=
  perform_ledger op (fun _ h ↦ h.1) fun _ _ _ h ↦ nomatch huses.symm.trans h

/-- A call on the descriptor of a held entry. -/
theorem performHeld_ledger {α : Type} {message : ClientMessage} {start : World}
    {entry : HandleEntry} (hheld : Held table message start entry) (hfile : entry.isDir = false)
    {call : PosixCall} (huses : call.uses = some (.fd entry.fd))
    (op : World → Except Errno (Done α)) :
    Triple (At start (Ledger table none)) (perform call op) fun _ ↦ Ledger table none := by
  obtain ⟨slot, hslot⟩ := hheld.slot
  refine perform_ledger op (fun _ h ↦ h.1) fun world h resource hresource ↦ ?_
  have hmem := (h.1.inTable slot entry (by rw [h.2.slots, hslot])).2.2.2.1
  rw [HandleEntry.resource, hfile] at hmem
  rw [huses] at hresource
  rw [← Option.some.inj hresource]
  exact hmem

theorem readdir_ledger {message : ClientMessage} {start : World} {entry : HandleEntry}
    (hheld : Held table message start entry) (hdir : entry.isDir = true) :
    Keeps (ledgerStages table start).reading (readdir entry.dir) := by
  obtain ⟨slot, hslot⟩ := hheld.slot
  have huses : ∀ world, (ledgerStages table start).reading world → ∀ resource,
      (PosixCall.readdir entry.dir).uses = some resource → resource ∈ outstanding world.trace := by
    intro world h resource hresource
    have hmem := (h.1.inTable slot entry (by rw [h.2, hslot])).2.2.2.1
    rw [HandleEntry.resource, hdir] at hmem
    rw [← Option.some.inj hresource]
    exact hmem
  refine readdir_triple (fun world h ↦ ?_) fun world stream h hstream ↦ ?_
  · exact ⟨h.1.passed (huses world h) _ _, h.2⟩
  · refine ⟨h.1.called ?_ rfl rfl rfl (huses world h), h.2⟩
    intro resource hresource
    cases resource with
    | fd number => exact hresource
    | stream address =>
      by_cases heq : address = entry.dir
      · rw [heq]
        exact List.mem_cons_self
      · exact List.mem_cons_of_mem _ (mem_keys_filter heq hresource)

/-- `sftp_handle_remove` and `close_handle` on a held entry. -/
theorem release_ledger {message : ClientMessage} {start : World} {entry : HandleEntry}
    (hheld : Held table message start entry) :
    Triple (At start (Ledger table none)) (do table.sftpHandleRemove entry; closeHandle entry)
      fun _ ↦ Ledger table none := by
  obtain ⟨slot, hslot⟩ := hheld.slot
  have hremove : Triple (At start (Ledger table none)) (table.sftpHandleRemove entry)
      fun _ world ↦ Ledger table (some entry.resource) world ∧ entry.Closable := by
    intro world h
    have hentry : world.slots slot = some entry := by rw [h.2.slots, hslot]
    rw [HandleTable.sftpHandleRemove, slotOf_eq h.1 hentry]
    exact ⟨h.1.removed hentry, (h.1.inTable slot entry hentry).2.1⟩
  exact Triple.bind hremove fun _ ↦ closeHandle_ledger entry

theorem ledgerRules (table : HandleTable) (options : Options) (message : ClientMessage)
    (start : World) : RequestRules table options message start (ledgerStages table start) where
  canonical path := by
    intro world h
    unfold weaklyCanonical
    split <;> exact h.transfer (fun _ h ↦ h) rfl le_rfl rfl
  reply _ _ _ := fun _ h ↦ h.log rfl trivial
  lstat _ := performPath_ledger rfl _
  stat _ := performPath_ledger rfl _
  readlink _ := performPath_ledger rfl _
  statEntry _ _ := performPath_ledger rfl _
  fstat hheld hfile := performHeld_ledger hheld hfile rfl _
  pread hheld hfile _ _ := performHeld_ledger hheld hfile rfl _
  pwrite _ _ hheld hfile _ _ := performHeld_ledger hheld hfile rfl _
  read _ _ _ _ _ h := ⟨h.1, h.2.slots⟩
  readdir _ _ hheld hdir :=
    (readdir_ledger hheld hdir).mono (fun _ h ↦ h) fun _ _ h ↦ ⟨h, fun _ _ ↦ trivial⟩
  lstatChild _ _ _ _ _ _ := by
    refine perform_triple (fun _ _ h ↦ ⟨?_, h.2⟩) fun _ _ h _ ↦ ⟨?_, h.2⟩
    · exact h.1.passedPath rfl _ _
    · exact h.1.passedPath rfl _ _
  collect _ _ _ := fun _ h ↦ ⟨h.1.log rfl trivial, h.2⟩
  listed _ h := h.1
  openFile _ _ _ := by
    refine openFile_triple (fun _ _ h ↦ ?_) fun _ done h _ ↦ ⟨?_, ?_⟩
    · exact h.1.passedPath rfl _ _
    · exact newDescriptor_ledger (h.1.passedPath rfl _ _) done.value
    · exact Int.natCast_nonneg _
  opendir _ := by
    refine opendir_triple (fun _ _ h ↦ ?_) fun _ done h _ ↦ ⟨?_, ?_⟩
    · exact h.1.passedPath rfl _ _
    · exact newStream_ledger (h.1.passedPath rfl _ _) done.value
    · exact List.ne_of_not_mem_cons (newStream_notMem done.value _)
  newAddress resource path := by
    intro world ⟨h, hclosable⟩
    have hresource : ∀ address, (resource.entry path address).resource = resource := by
      intro address
      cases resource <;> rfl
    refine ⟨⟨?_, ?_⟩, ?_, ?_⟩
    · rw [hresource]
      exact h.transfer (fun _ h ↦ h) rfl (Nat.le_succ _) rfl
    · cases resource <;> exact hclosable
    · cases resource <;> exact Nat.lt_succ_self _
    · intro slot other hother heq
      have hold := (h.inTable slot other hother).2.2.1
      rw [heq] at hold
      cases resource <;> exact absurd hold (Nat.lt_irrefl _)
  alloc entry := by
    refine alloc_triple (fun world h ↦ ?_) fun world slot h hslot hfree ↦ ?_
    · exact ⟨⟨h.1.1.transfer (fun _ h ↦ h) rfl le_rfl rfl, h.1.2⟩, h.2⟩
    · exact h.1.1.stored h.1.2 h.2.1 h.2.2 hslot hfree
  abandon entry := (closeHandle_ledger entry).mono (fun _ h ↦ h.1) fun _ _ h ↦ h
  grant _ := fun _ h ↦ h.log rfl trivial
  release _ _ hheld := release_ledger hheld
  unlink _ _ _ := performPath_ledger rfl _
  mkdir _ _ _ _ := performPath_ledger rfl _
  rmdir _ _ _ _ := performPath_ledger rfl _
  rename _ _ _ _ _ _ := performPath_ledger rfl _
  symlink _ _ _ _ := performPath_ledger rfl _

/-! ### The conversation -/

/-- The world when `try_serve` is called: libssh's handle table is empty and nothing has
been done yet. The process may have other descriptors and streams. -/
def World.begin (fs : FileSystem) (fds : List (ℤ × OpenFile)) (streams : List (ℕ × DirStream))
    (faults : List Fault) : World :=
  { fs, fds, streams, faults }

theorem ledger_begin (table : HandleTable) (fs : FileSystem) (fds : List (ℤ × OpenFile))
    (streams : List (ℕ × DirStream)) (faults : List Fault) :
    Ledger table none (World.begin fs fds streams faults) where
  orderly := by
    intro before event after heq
    simp [World.begin] at heq
  known := by simp [World.begin, outstanding]
  inTable _ _ h := nomatch h
  resource_inj _ _ _ _ h := nomatch h
  address_inj _ _ _ _ h := nomatch h
  covered := by simp [World.begin, outstanding]
  isLoose _ h := nomatch h

theorem serveMessage_ledger (table : HandleTable) (options : Options) (message : ClientMessage) :
    Keeps (Ledger table none) (serveMessage table options message) := by
  intro world h
  have hreceived : Ledger table none (world.log (.received message)) := h.log rfl trivial
  have hserved := (ledgerRules table options message _).request _
    ⟨hreceived, quiet_refl _⟩
  exact hserved.log rfl trivial

/-- The ledger is settled in every state that `try_serve` reaches between two messages. -/
theorem tryServe_ledger (table : HandleTable) (options : Options) (startup : Startup)
    (messages : List ClientMessage) (fs : FileSystem) (fds : List (ℤ × OpenFile))
    (streams : List (ℕ × DirStream)) (faults : List Fault) :
    Ledger table none
      (tryServe table options startup messages (World.begin fs fds streams faults)).2 := by
  rw [tryServe_world]
  exact invariant_of_keeps (serveMessage_ledger table options) _
    (ledger_begin table fs fds streams faults)

/-- The resource of the entry in a slot. -/
def World.resourceAt (world : World) (slot : ℕ) : Resource :=
  ((world.slots slot).map HandleEntry.resource).getD (.fd (-1))

theorem Ledger.bijOn {world : World} (h : Ledger table none world) :
    Set.BijOn world.resourceAt {slot | world.slots slot ≠ none}
      {resource | resource ∈ outstanding world.trace} := by
  have hat : ∀ slot entry, world.slots slot = some entry →
      world.resourceAt slot = entry.resource := by
    intro slot entry hentry
    rw [World.resourceAt, hentry]
    rfl
  refine ⟨?_, ?_, ?_⟩
  · intro slot hslot
    obtain ⟨entry, hentry⟩ := Option.ne_none_iff_exists'.mp hslot
    change world.resourceAt slot ∈ outstanding world.trace
    rw [hat slot entry hentry]
    exact (h.inTable slot entry hentry).2.2.2.1
  · intro first hfirst second hsecond heq
    obtain ⟨entry, hentry⟩ := Option.ne_none_iff_exists'.mp hfirst
    obtain ⟨other, hother⟩ := Option.ne_none_iff_exists'.mp hsecond
    rw [hat first entry hentry, hat second other hother] at heq
    exact h.resource_inj first second entry other hentry hother heq
  · intro resource hresource
    obtain ⟨slot, entry, hentry, heq⟩ := (h.covered resource hresource).resolve_left (by simp)
    exact ⟨slot, by simp [hentry], (hat slot entry hentry).trans heq⟩

/-- In every state that `try_serve` reaches, the live slots of the handle table are in
bijection with the descriptors and streams that are open; and along the way nothing was
closed that was not open, and no call worked on a descriptor or stream that was not. -/
theorem tryServe_handles_bijOn (table : HandleTable) (options : Options) (startup : Startup)
    (messages : List ClientMessage) (fs : FileSystem) (fds : List (ℤ × OpenFile))
    (streams : List (ℕ × DirStream)) (faults : List Fault) :
    let world := (tryServe table options startup messages (World.begin fs fds streams faults)).2
    Set.BijOn world.resourceAt {slot | world.slots slot ≠ none}
        {resource | resource ∈ outstanding world.trace} ∧
      Orderly world.trace := by
  have h := tryServe_ledger table options startup messages fs fds streams faults
  exact ⟨h.bijOn, h.orderly⟩

end LibSshpp.SftpServer
