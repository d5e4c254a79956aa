import LibSshpp.Program.StateTriple
import Mathlib.Data.Nat.Notation
import Mathlib.Logic.Equiv.Basic

/-!
The eleven classes that wrap a native handle: `Channel`, `Key`, `Sftp`, `File`,
`Directory`, `scp::Reader`, `scp::Writer`, `Event`, `Bind`, `Connector` and
`server::Message`. Each of them writes its destructor and its moves by hand; what
they differ in is which calls release the handle and which flags a move resets.
-/

set_option autoImplicit false
set_option relaxedAutoImplicit false

namespace LibSshpp.Lifetime.Handles

open Program

inductive Kind
  | channel | key | sftp | file | directory | reader | writer | event | bind | connector | message
  deriving DecidableEq, Repr

/-- A handle that a wrapper was given to own, or one that belongs to somebody else. -/
inductive Handle
  | owned (id : ℕ)
  | borrowed (id : ℕ)
  deriving DecidableEq, Repr

/-- The calls that answer a message: `ssh_message_reply_default`,
`ssh_message_auth_reply_success`, `ssh_message_auth_reply_pk_ok_simple`,
`ssh_message_channel_request_reply_success` and
`ssh_message_channel_request_open_reply_accept`. -/
inductive Reply
  | default | authSuccess | authPkOk | requestSuccess | openAccept
  deriving DecidableEq, Repr

/-- The calls with a native handle; `other` is any call that neither releases the
handle nor answers it. -/
inductive NativeCall
  | sshChannelIsOpen | sshChannelOpenSession | sshChannelIsClosed | sshChannelClose
  | sshChannelFree | sshKeyFree | sftpFree | sftpClose | sftpClosedir | sshScpClose | sshScpFree
  | sshEventFree | sshBindFree | sshConnectorFree | sshMessageFree
  | messageReply (answer : Reply)
  | other
  deriving DecidableEq, Repr

/-- After this call the handle is gone. -/
def NativeCall.isRelease : NativeCall → Bool
  | .sshChannelFree | .sshKeyFree | .sftpFree | .sftpClose | .sftpClosedir | .sshScpFree
  | .sshEventFree | .sshBindFree | .sshConnectorFree | .sshMessageFree => true
  | _ => false

def NativeCall.isReply : NativeCall → Bool
  | .messageReply _ => true
  | _ => false

/-- A wrapper object with the members that its special members read: `owning_` is a
member of `Channel` and `Key`, `open_` of `Channel` and `replied_` of `Message`; in
the other classes they keep these values. -/
structure Wrapper where
  kind : Kind
  native : Option Handle := none
  owning : Bool := true
  isOpen : Bool := false
  replied : Bool := false
  deriving DecidableEq, Repr

/-! ### Releasing -/

/-- `~Channel`; `closed` is the answer of `ssh_channel_is_closed`. -/
def Channel.release (channel : Wrapper) (closed : Bool) : List NativeCall :=
  if channel.owning then
    (if channel.isOpen then
      .sshChannelIsClosed :: (if closed then [] else [.sshChannelClose])
    else []) ++ [.sshChannelFree]
  else []

/-- `~Key`. -/
def Key.release (key : Wrapper) : List NativeCall :=
  if key.owning then [.sshKeyFree] else []

/-- `~Message`. -/
def Message.release (message : Wrapper) : List NativeCall :=
  (if message.replied then [] else [.messageReply .default]) ++ [.sshMessageFree]

/-- What a destructor, or an assignment to the object, does with a handle. -/
def Wrapper.release (wrapper : Wrapper) (closed : Bool) : List NativeCall :=
  match wrapper.kind with
  | .channel => Channel.release wrapper closed
  | .key => Key.release wrapper
  | .sftp => [.sftpFree]
  | .file => [.sftpClose]
  | .directory => [.sftpClosedir]
  | .reader | .writer => [.sshScpClose, .sshScpFree]
  | .event => [.sshEventFree]
  | .bind => [.sshBindFree]
  | .connector => [.sshConnectorFree]
  | .message => Message.release wrapper

/-- What a move leaves behind. -/
def Wrapper.movedFrom (wrapper : Wrapper) : Wrapper :=
  match wrapper.kind with
  | .channel => { wrapper with native := none, isOpen := false }
  | .message => { wrapper with native := none, replied := true }
  | _ => { wrapper with native := none }

/-- The classes that can be told to borrow. -/
def Kind.CanBorrow (kind : Kind) : Prop := kind = .channel ∨ kind = .key

instance (kind : Kind) : Decidable kind.CanBorrow := inferInstanceAs (Decidable (_ ∨ _))

/-! ### Programs -/

/-- The variables that are alive, the number of owned handles handed out, and the
calls made, each with its handle. -/
structure Heap where
  objects : ℕ → Option Wrapper := fun _ ↦ none
  next : ℕ := 0
  calls : List (Handle × NativeCall) := []

namespace Heap

def emit (heap : Heap) (handle : Handle) (calls : List NativeCall) : Heap :=
  { heap with calls := heap.calls ++ calls.map (Prod.mk handle) }

def put (heap : Heap) (name : ℕ) (wrapper : Option Wrapper) : Heap :=
  { heap with objects := Function.update heap.objects name wrapper }

/-- The release of what an object holds, if it holds something. -/
def releaseNative (heap : Heap) (wrapper : Wrapper) (closed : Bool) : Heap :=
  match wrapper.native with
  | none => heap
  | some handle => heap.emit handle (wrapper.release closed)

/-- A fresh object around a handle. `Channel::from_native` asks whether the channel is
open. -/
def construct (heap : Heap) (name : ℕ) (kind : Kind) (handle : Handle) (owning isOpen : Bool) :
    Heap :=
  if kind = .channel then
    (heap.emit handle [.sshChannelIsOpen]).put name
      (some { kind, native := some handle, owning, isOpen })
  else heap.put name (some { kind, native := some handle, owning })

end Heap

/-- What a new object is built around: nothing, a handle of its own, or a handle of
somebody else. -/
inductive Adoption
  | null
  | owning
  | borrowed (id : ℕ)
  deriving DecidableEq, Repr

/-- One operation of a program over variables of these classes, with libssh's answers. -/
inductive Op
  | adopt (name : ℕ) (kind : Kind) (adoption : Adoption) (isOpen : Bool)
  | moveConstruct (name other : ℕ)
  | moveAssign (name other : ℕ) (closed : Bool)
  | destroy (name : ℕ) (closed : Bool)
  | use (name : ℕ)
  | openSession (name : ℕ) (opened : Bool)
  | closeChannel (name : ℕ)
  | closeFile (name : ℕ)
  | reply (name : ℕ) (answer : Reply)
  deriving DecidableEq, Repr

namespace Heap

def adopt (heap : Heap) (name : ℕ) (kind : Kind) (isOpen : Bool) : Adoption → Heap
  | .null => heap.put name (some { kind })
  | .owning =>
    { heap with next := heap.next + 1 }.construct name kind (.owned heap.next) true isOpen
  | .borrowed id =>
    if kind.CanBorrow then heap.construct name kind (.borrowed id) false isOpen else heap

/-- The handle and the flags move on, and the source is left as its class leaves it. -/
def transfer (heap : Heap) (name other : ℕ) (wrapper : Wrapper) : Heap :=
  (heap.put name (some wrapper)).put other (some wrapper.movedFrom)

def moveAssign (heap : Heap) (name other : ℕ) (target source : Wrapper) (closed : Bool) : Heap :=
  if name = other then heap
  else (heap.releaseNative target closed).transfer name other source

def destroy (heap : Heap) (name : ℕ) (wrapper : Wrapper) (closed : Bool) : Heap :=
  (heap.releaseNative wrapper closed).put name none

/-- A method that passes the handle on and leaves the object as `after`. -/
def useNative (heap : Heap) (name : ℕ) (wrapper after : Wrapper) (call : NativeCall) : Heap :=
  match wrapper.native with
  | none => heap
  | some handle => (heap.emit handle [call]).put name (some after)

/-- `File::try_close`. -/
def closeFile (heap : Heap) (name : ℕ) (file : Wrapper) : Heap :=
  match file.native with
  | none => heap
  | some handle => (heap.emit handle [.sftpClose]).put name (some { file with native := none })

end Heap

/-- An operation on variables that are not there, or of another class, is no C++
program; it does nothing here. -/
def Op.apply (heap : Heap) : Op → Heap
  | .adopt name kind adoption isOpen =>
    match heap.objects name with
    | none => heap.adopt name kind isOpen adoption
    | some _ => heap
  | .moveConstruct name other =>
    match heap.objects name, heap.objects other with
    | none, some wrapper => heap.transfer name other wrapper
    | _, _ => heap
  | .moveAssign name other closed =>
    match heap.objects name, heap.objects other with
    | some target, some source =>
      if target.kind = source.kind then heap.moveAssign name other target source closed else heap
    | _, _ => heap
  | .destroy name closed =>
    match heap.objects name with
    | some wrapper => heap.destroy name wrapper closed
    | none => heap
  | .use name =>
    match heap.objects name with
    | some wrapper => heap.useNative name wrapper wrapper .other
    | none => heap
  | .openSession name opened =>
    match heap.objects name with
    | some wrapper =>
      if wrapper.kind = .channel then
        heap.useNative name wrapper { wrapper with isOpen := wrapper.isOpen || opened }
          .sshChannelOpenSession
      else heap
    | none => heap
  | .closeChannel name =>
    match heap.objects name with
    | some wrapper =>
      if wrapper.kind = .channel then
        heap.useNative name wrapper { wrapper with isOpen := false } .sshChannelClose
      else heap
    | none => heap
  | .closeFile name =>
    match heap.objects name with
    | some wrapper => if wrapper.kind = .file then heap.closeFile name wrapper else heap
    | none => heap
  | .reply name answer =>
    match heap.objects name with
    | some wrapper =>
      if wrapper.kind = .message then
        heap.useNative name wrapper { wrapper with replied := true } (.messageReply answer)
      else heap
    | none => heap

def step (op : Op) : StateM Heap Unit := fun heap ↦ ((), op.apply heap)

/-- An owning adoption counts its handle, and its variable holds and owns it. -/
theorem apply_adopt_owning {heap : Heap} {name : ℕ} (hname : heap.objects name = none) (kind : Kind)
    (isOpen : Bool) :
    ((Op.adopt name kind .owning isOpen).apply heap).next = heap.next + 1 ∧
      ∃ wrapper, ((Op.adopt name kind .owning isOpen).apply heap).objects name = some wrapper ∧
        wrapper.kind = kind ∧ wrapper.native = some (.owned heap.next) ∧
          wrapper.owning = true := by
  have hadopt : (Op.adopt name kind .owning isOpen).apply heap =
      { heap with next := heap.next + 1 }.construct name kind (.owned heap.next) true isOpen := by
    rw [Op.apply, hname]
    rfl
  rw [hadopt, Heap.construct]
  split_ifs with hchannel
  · exact ⟨rfl, _, Function.update_self _ _ _, rfl, rfl, rfl⟩
  · exact ⟨rfl, _, Function.update_self _ _ _, rfl, rfl, rfl⟩

/-! ### The life of a handle -/

/-- The calls with one handle. -/
def callsOn (handle : Handle) (calls : List (Handle × NativeCall)) : List NativeCall :=
  (calls.filter fun entry ↦ entry.1 = handle).map Prod.snd

def Unreleased (calls : List NativeCall) : Prop := ∀ call ∈ calls, call.isRelease = false

/-- One call releases the handle, and it is the last one. -/
def Finished (calls : List NativeCall) : Prop :=
  ∃ life release, calls = life ++ [release] ∧ release.isRelease = true ∧ Unreleased life

/-- The handle has been answered through its wrapper. -/
def Answered (calls : List NativeCall) : Prop := ∃ call ∈ calls, call.isReply = true

instance (calls : List NativeCall) : Decidable (Answered calls) :=
  inferInstanceAs (Decidable (∃ call ∈ calls, _))

theorem callsOn_append (handle : Handle) (calls more : List (Handle × NativeCall)) :
    callsOn handle (calls ++ more) = callsOn handle calls ++ callsOn handle more := by
  simp [callsOn]

theorem callsOn_map (handle other : Handle) (calls : List NativeCall) :
    callsOn handle (calls.map (Prod.mk other)) = if other = handle then calls else [] := by
  by_cases hsame : other = handle
  · simp [callsOn, hsame, List.filter_map, Function.comp_def]
  · simp [callsOn, hsame, List.filter_map, Function.comp_def]

theorem callsOn_emit (heap : Heap) (handle other : Handle) (calls : List NativeCall) :
    callsOn handle (heap.emit other calls).calls =
      callsOn handle heap.calls ++ if other = handle then calls else [] := by
  rw [Heap.emit, callsOn_append, callsOn_map]

/-- Calls with one handle are none with another. -/
theorem callsOn_emit_of_ne {heap : Heap} {handle other : Handle} (hne : other ≠ handle)
    (calls : List NativeCall) :
    callsOn handle (heap.emit other calls).calls = callsOn handle heap.calls := by
  rw [callsOn_emit, if_neg hne, List.append_nil]

theorem Unreleased.append {first second : List NativeCall} (hfirst : Unreleased first)
    (hsecond : Unreleased second) : Unreleased (first ++ second) := by
  intro call hcall
  rcases List.mem_append.mp hcall with hmem | hmem
  · exact hfirst call hmem
  · exact hsecond call hmem

theorem Unreleased.append_finished {first second : List NativeCall} (hfirst : Unreleased first)
    (hsecond : Finished second) : Finished (first ++ second) := by
  obtain ⟨life, release, rfl, hrelease, hlife⟩ := hsecond
  exact ⟨first ++ life, release, (List.append_assoc _ _ _).symm, hrelease, hfirst.append hlife⟩

theorem answered_append (first second : List NativeCall) :
    Answered (first ++ second) ↔ Answered first ∨ Answered second := by
  simp [Answered, or_and_right, exists_or]

/-- An owning object releases its handle, and does so last. -/
theorem release_finished {wrapper : Wrapper} (howning : wrapper.owning = true) (closed : Bool) :
    Finished (wrapper.release closed) := by
  have hone : ∀ call : NativeCall, call.isRelease = true → Finished [call] := fun call h ↦
    ⟨[], call, rfl, h, fun _ hmem ↦ absurd hmem List.not_mem_nil⟩
  have htwo : ∀ call : NativeCall, call.isRelease = true → ∀ life, Unreleased life →
      Finished (life ++ [call]) := fun call h life hlife ↦ hlife.append_finished (hone call h)
  unfold Wrapper.release
  split
  · rw [Channel.release, if_pos howning]
    refine htwo _ rfl _ ?_
    cases wrapper.isOpen <;> cases closed <;> simp [Unreleased, NativeCall.isRelease]
  · rw [Key.release, if_pos howning]
    exact hone _ rfl
  · exact hone _ rfl
  · exact hone _ rfl
  · exact hone _ rfl
  · exact htwo _ rfl [.sshScpClose] (by simp [Unreleased, NativeCall.isRelease])
  · exact htwo _ rfl [.sshScpClose] (by simp [Unreleased, NativeCall.isRelease])
  · exact hone _ rfl
  · exact hone _ rfl
  · exact hone _ rfl
  · refine htwo _ rfl _ ?_
    cases wrapper.replied <;> simp [Unreleased, NativeCall.isRelease]

/-- A borrowing object releases nothing. -/
theorem release_borrowed {wrapper : Wrapper} (howning : wrapper.owning = false)
    (hkind : wrapper.kind.CanBorrow) (closed : Bool) : wrapper.release closed = [] := by
  rcases hkind with hkind | hkind
  · simp [Wrapper.release, hkind, Channel.release, howning]
  · simp [Wrapper.release, hkind, Key.release, howning]

/-! ### One owner -/

/-- The handle a variable holds. -/
def Heap.holds (heap : Heap) (name : ℕ) : Option Handle := (heap.objects name).bind Wrapper.native

/-- The flags of an object fit the handle it holds and the calls made with it. -/
structure Sane (calls : List (Handle × NativeCall)) (wrapper : Wrapper) : Prop where
  borrows : wrapper.owning = false → wrapper.kind.CanBorrow
  owned : ∀ id, wrapper.native = some (.owned id) → wrapper.owning = true
  borrowed : ∀ id, wrapper.native = some (.borrowed id) → wrapper.owning = false
  replied : wrapper.kind = .message → ∀ handle, wrapper.native = some handle →
    (wrapper.replied = true ↔ Answered (callsOn handle calls))

/-- Every owned handle has one holder until its life is finished. -/
structure OneOwner (heap : Heap) : Prop where
  sane : ∀ name wrapper, heap.objects name = some wrapper → Sane heap.calls wrapper
  unique : ∀ name other id, heap.holds name = some (.owned id) →
    heap.holds other = some (.owned id) → name = other
  live : ∀ name id, heap.holds name = some (.owned id) →
    id < heap.next ∧ Unreleased (callsOn (.owned id) heap.calls)
  settled : ∀ id, id < heap.next → (∃ name, heap.holds name = some (.owned id)) ∨
    Finished (callsOn (.owned id) heap.calls)
  unborn : ∀ id, heap.next ≤ id → callsOn (.owned id) heap.calls = []
  borrowed : ∀ id, Unreleased (callsOn (.borrowed id) heap.calls)

theorem holds_eq {heap : Heap} {name : ℕ} {wrapper : Wrapper}
    (h : heap.objects name = some wrapper) : heap.holds name = wrapper.native := by
  rw [Heap.holds, h]
  rfl

theorem holds_put (heap : Heap) (name other : ℕ) (new : Option Wrapper) :
    (heap.put name new).holds other =
      if other = name then new.bind Wrapper.native else heap.holds other := by
  by_cases hsame : other = name
  · subst hsame
    simp [Heap.holds, Heap.put]
  · simp [Heap.holds, Heap.put, hsame]

theorem objects_put (heap : Heap) (name other : ℕ) (new : Option Wrapper) :
    (heap.put name new).objects other = if other = name then new else heap.objects other := by
  by_cases hsame : other = name
  · subst hsame
    simp [Heap.put]
  · simp [Heap.put, hsame]

theorem calls_put (heap : Heap) (name : ℕ) (new : Option Wrapper) :
    (heap.put name new).calls = heap.calls := rfl

theorem Sane.of_callsOn_eq {calls more : List (Handle × NativeCall)} {wrapper : Wrapper}
    (h : Sane calls wrapper)
    (hsame : ∀ handle, wrapper.kind = .message → wrapper.native = some handle →
      callsOn handle more = callsOn handle calls) : Sane more wrapper where
  borrows := h.borrows
  owned := h.owned
  borrowed := h.borrowed
  replied := by
    intro hkind handle hnative
    rw [hsame handle hkind hnative]
    exact h.replied hkind handle hnative

/-- A message never borrows, so what it holds it holds alone. -/
theorem Sane.owned_of_message {calls : List (Handle × NativeCall)} {wrapper : Wrapper}
    {handle : Handle} (h : Sane calls wrapper) (hkind : wrapper.kind = .message)
    (hnative : wrapper.native = some handle) : ∃ id, handle = .owned id := by
  cases handle with
  | owned id => exact ⟨id, rfl⟩
  | borrowed id =>
    rcases h.borrows (h.borrowed id hnative) with hchannel | hkey
    · exact nomatch hkind.symm.trans hchannel
    · exact nomatch hkind.symm.trans hkey

/-- Calls with the handle of one object do not concern the other objects. -/
theorem OneOwner.sane_other {heap : Heap} {name other : ℕ} {wrapper otherWrapper : Wrapper}
    {handle : Handle} (h : OneOwner heap) (hobject : heap.objects name = some wrapper)
    (hnative : wrapper.native = some handle) (hother : heap.objects other = some otherWrapper)
    (hne : other ≠ name) (calls : List NativeCall) :
    Sane (heap.emit handle calls).calls otherWrapper := by
  have hsane := h.sane other otherWrapper hother
  refine hsane.of_callsOn_eq fun held hkind hheld ↦ ?_
  obtain ⟨id, rfl⟩ := hsane.owned_of_message hkind hheld
  have hdiffers : handle ≠ .owned id := by
    rintro rfl
    exact hne (h.unique other name id ((holds_eq hother).trans hheld)
      ((holds_eq hobject).trans hnative))
  exact callsOn_emit_of_ne hdiffers calls

@[simp] theorem movedFrom_native (wrapper : Wrapper) : wrapper.movedFrom.native = none := by
  unfold Wrapper.movedFrom
  split <;> rfl

@[simp] theorem movedFrom_kind (wrapper : Wrapper) : wrapper.movedFrom.kind = wrapper.kind := by
  unfold Wrapper.movedFrom
  split <;> rfl

@[simp] theorem movedFrom_owning (wrapper : Wrapper) :
    wrapper.movedFrom.owning = wrapper.owning := by
  unfold Wrapper.movedFrom
  split <;> rfl

/-- Handles that change hands, with no call and none of them lost. -/
theorem OneOwner.of_perm {heap after : Heap} (h : OneOwner heap) (hcalls : after.calls = heap.calls)
    (hnext : after.next = heap.next) (owner : Equiv.Perm ℕ)
    (hholds : ∀ name id, after.holds name = some (.owned id) ↔
      heap.holds (owner name) = some (.owned id))
    (hsane : ∀ name wrapper, after.objects name = some wrapper → Sane heap.calls wrapper) :
    OneOwner after := by
  constructor
  · rw [hcalls]
    exact hsane
  · intro name other id hname hother
    rw [hholds] at hname hother
    exact owner.injective (h.unique _ _ id hname hother)
  · intro name id hname
    rw [hholds] at hname
    rw [hcalls, hnext]
    exact h.live _ id hname
  · intro id hlt
    rw [hnext] at hlt
    rw [hcalls]
    refine (h.settled id hlt).imp_left ?_
    rintro ⟨name, hname⟩
    refine ⟨owner.symm name, (hholds _ id).mpr ?_⟩
    rw [Equiv.apply_symm_apply]
    exact hname
  · rw [hcalls, hnext]
    exact h.unborn
  · rw [hcalls]
    exact h.borrowed

/-- An object that holds nothing, or no object. -/
def Vacant (slot : Option Wrapper) : Prop :=
  ∀ wrapper, slot = some wrapper →
    wrapper.native = none ∧ (wrapper.owning = false → wrapper.kind.CanBorrow)

theorem Vacant.sane {slot : Option Wrapper} {wrapper : Wrapper} (h : Vacant slot)
    (hslot : slot = some wrapper) (calls : List (Handle × NativeCall)) : Sane calls wrapper := by
  obtain ⟨hnative, hborrows⟩ := h wrapper hslot
  refine ⟨hborrows, ?_, ?_, ?_⟩
  · intro id hheld
    exact nomatch hnative.symm.trans hheld
  · intro id hheld
    exact nomatch hnative.symm.trans hheld
  · intro _ handle hheld
    exact nomatch hnative.symm.trans hheld

theorem Vacant.native {slot : Option Wrapper} (h : Vacant slot) :
    slot.bind Wrapper.native = none := by
  cases slot with
  | none => rfl
  | some wrapper => exact (h wrapper rfl).1

theorem vacant_none : Vacant none := fun _ hnone ↦ nomatch hnone

/-- An owning object around a handle that nothing has been called with. -/
theorem Sane.of_unused {calls : List (Handle × NativeCall)} {wrapper : Wrapper} {id : ℕ}
    (hnative : wrapper.native = some (.owned id)) (howning : wrapper.owning = true)
    (hreplied : wrapper.replied = false) (hunused : callsOn (.owned id) calls = []) :
    Sane calls wrapper where
  borrows := fun hfalse ↦ nomatch howning.symm.trans hfalse
  owned := fun _ _ ↦ howning
  borrowed := fun _ hheld ↦ nomatch hnative.symm.trans hheld
  replied := by
    intro _ handle hheld
    obtain rfl := Option.some.inj (hnative.symm.trans hheld)
    rw [hreplied, hunused]
    exact iff_of_false Bool.false_ne_true fun ⟨_, hmem, _⟩ ↦ absurd hmem List.not_mem_nil

theorem OneOwner.vacant_of_native {heap : Heap} {name : ℕ} {wrapper : Wrapper} (h : OneOwner heap)
    (hobject : heap.objects name = some wrapper) :
    Vacant (some { wrapper with native := none }) := by
  intro emptied hemptied
  obtain rfl := Option.some.inj hemptied
  exact ⟨rfl, (h.sane name wrapper hobject).borrows⟩

/-- A change of a variable that holds nothing to one that holds no owned handle. -/
theorem oneOwner_put {heap : Heap} {name : ℕ} {new : Option Wrapper} (h : OneOwner heap)
    (hname : ∀ id, heap.holds name ≠ some (.owned id))
    (hnew : ∀ id, new.bind Wrapper.native ≠ some (.owned id))
    (hsane : ∀ wrapper, new = some wrapper → Sane heap.calls wrapper) :
    OneOwner (heap.put name new) := by
  refine h.of_perm rfl rfl (Equiv.refl ℕ) ?_ ?_
  · intro other id
    rw [holds_put, Equiv.refl_apply]
    split_ifs with hsame
    · subst hsame
      exact iff_of_false (hnew id) (hname id)
    · exact Iff.rfl
  · intro other wrapper hother
    rw [objects_put] at hother
    split_ifs at hother with hsame
    · exact hsane wrapper hother
    · exact h.sane other wrapper hother

/-- A move from one variable to a vacant one. -/
theorem oneOwner_transfer {heap : Heap} {name other : ℕ} {wrapper : Wrapper} (h : OneOwner heap)
    (hvacant : heap.holds name = none) (hother : heap.objects other = some wrapper) :
    OneOwner (heap.transfer name other wrapper) := by
  have hsane := h.sane other wrapper hother
  refine h.of_perm rfl rfl (Equiv.swap name other) ?_ ?_
  · intro each id
    rw [Heap.transfer, holds_put, holds_put]
    by_cases hsource : each = other
    · rw [if_pos hsource, hsource, Equiv.swap_apply_right, hvacant, Option.bind_some,
        movedFrom_native]
    · rw [if_neg hsource]
      by_cases htarget : each = name
      · rw [if_pos htarget, htarget, Equiv.swap_apply_left, holds_eq hother, Option.bind_some]
      · rw [if_neg htarget, Equiv.swap_apply_of_ne_of_ne htarget hsource]
  · intro each found hfound
    rw [Heap.transfer, objects_put, objects_put] at hfound
    split_ifs at hfound with hsource htarget
    · obtain rfl := Option.some.inj hfound
      have hvacated : Vacant (some wrapper.movedFrom) := by
        intro moved hmoved
        obtain rfl := Option.some.inj hmoved
        refine ⟨movedFrom_native wrapper, ?_⟩
        rw [movedFrom_owning, movedFrom_kind]
        exact hsane.borrows
      exact hvacated.sane rfl _
    · obtain rfl := Option.some.inj hfound
      exact hsane
    · exact h.sane each found hfound

/-- A method that uses the handle and does not release it. -/
theorem oneOwner_use {heap : Heap} {name : ℕ} {wrapper after : Wrapper} {handle : Handle}
    {call : NativeCall} (h : OneOwner heap) (hobject : heap.objects name = some wrapper)
    (hnative : wrapper.native = some handle) (hcall : call.isRelease = false)
    (hafter : Sane (heap.emit handle [call]).calls after) (hsame : after.native = some handle) :
    OneOwner ((heap.emit handle [call]).put name (some after)) := by
  have hholds : ∀ other, ((heap.emit handle [call]).put name (some after)).holds other =
      heap.holds other := by
    intro other
    rw [holds_put]
    split_ifs with hname
    · subst hname
      rw [holds_eq hobject, hnative]
      exact hsame
    · rfl
  have hunreleased : ∀ other, Unreleased (callsOn other heap.calls) →
      Unreleased (callsOn other (heap.emit handle [call]).calls) := by
    intro other hother
    rw [callsOn_emit]
    refine hother.append ?_
    split_ifs
    · intro made hmade
      obtain rfl := List.mem_singleton.mp hmade
      exact hcall
    · exact fun _ hmade ↦ absurd hmade List.not_mem_nil
  have hquiet : ∀ id, (∀ other, heap.holds other ≠ some (.owned id)) →
      callsOn (.owned id) (heap.emit handle [call]).calls = callsOn (.owned id) heap.calls := by
    intro id hnone
    have hdiffers : handle ≠ .owned id := by
      rintro rfl
      exact hnone name ((holds_eq hobject).trans hnative)
    exact callsOn_emit_of_ne hdiffers [call]
  constructor
  · intro other otherWrapper hother
    rw [objects_put] at hother
    split_ifs at hother with hname
    · obtain rfl := Option.some.inj hother
      exact hafter
    · exact h.sane_other hobject hnative hother hname _
  · intro first second id hfirst hsecond
    rw [hholds] at hfirst hsecond
    exact h.unique first second id hfirst hsecond
  · intro other id hother
    rw [hholds] at hother
    obtain ⟨hlt, hlive⟩ := h.live other id hother
    exact ⟨hlt, hunreleased _ hlive⟩
  · intro id hlt
    by_cases hheld : ∃ other, heap.holds other = some (.owned id)
    · obtain ⟨other, hother⟩ := hheld
      exact .inl ⟨other, (hholds other).trans hother⟩
    · refine .inr ?_
      rw [calls_put, hquiet id (not_exists.mp hheld)]
      exact (h.settled id hlt).resolve_left hheld
  · intro id hle
    rw [calls_put, hquiet id fun other hother ↦ ?_]
    · exact h.unborn id hle
    · exact absurd (h.live other id hother).1 (Nat.not_lt.mpr hle)
  · exact fun id ↦ hunreleased _ (h.borrowed id)

/-- The release of an owned handle, which leaves its variable vacant. -/
theorem oneOwner_release_owned {heap : Heap} {name id : ℕ} {wrapper : Wrapper}
    {calls : List NativeCall} {new : Option Wrapper} (h : OneOwner heap)
    (hobject : heap.objects name = some wrapper) (hnative : wrapper.native = some (.owned id))
    (hcalls : Finished calls) (hnew : Vacant new) :
    OneOwner ((heap.emit (.owned id) calls).put name new) := by
  have hname := (holds_eq hobject).trans hnative
  have hholds : ∀ other, ((heap.emit (.owned id) calls).put name new).holds other =
      if other = name then none else heap.holds other := by
    intro other
    rw [holds_put, hnew.native]
    rfl
  have hother : ∀ handle, handle ≠ .owned id →
      callsOn handle (heap.emit (.owned id) calls).calls = callsOn handle heap.calls := by
    exact fun handle hne ↦ callsOn_emit_of_ne (Ne.symm hne) calls
  have hne : ∀ other each, other ≠ name → heap.holds other = some (.owned each) → each ≠ id := by
    rintro other each hdiffers hheld rfl
    exact hdiffers (h.unique other name each hheld hname)
  constructor
  · intro other otherWrapper hobjectOther
    rw [objects_put] at hobjectOther
    split_ifs at hobjectOther with hsame
    · exact hnew.sane hobjectOther _
    · exact h.sane_other hobject hnative hobjectOther hsame _
  · intro first second each hfirst hsecond
    rw [hholds] at hfirst hsecond
    split_ifs at hfirst hsecond
    exact h.unique first second each hfirst hsecond
  · intro other each hheld
    rw [hholds] at hheld
    split_ifs at hheld with hsame
    obtain ⟨hlt, hlive⟩ := h.live other each hheld
    refine ⟨hlt, ?_⟩
    rw [calls_put, hother _ (fun heq ↦ hne other each hsame hheld (Handle.owned.inj heq))]
    exact hlive
  · intro each hlt
    by_cases hsame : each = id
    · subst hsame
      refine .inr ?_
      rw [calls_put, callsOn_emit, if_pos rfl]
      exact (h.live name each hname).2.append_finished hcalls
    · rw [calls_put, hother _ (fun heq ↦ hsame (Handle.owned.inj heq))]
      refine (h.settled each hlt).imp_left ?_
      rintro ⟨other, hheld⟩
      refine ⟨other, ?_⟩
      have hdiffers : other ≠ name := by
        rintro rfl
        exact hsame (Handle.owned.inj (Option.some.inj (hheld.symm.trans hname)))
      rw [hholds, if_neg hdiffers]
      exact hheld
  · intro each hle
    rw [calls_put, hother _ ?_]
    · exact h.unborn each hle
    · intro heq
      obtain rfl := Handle.owned.inj heq
      exact absurd (h.live name each hname).1 (Nat.not_lt.mpr hle)
  · intro each
    rw [calls_put, hother (.borrowed each) (fun heq ↦ nomatch heq)]
    exact h.borrowed each

/-- What an object holds is released and its variable left vacant. -/
theorem oneOwner_releaseNative {heap : Heap} {name : ℕ} {wrapper : Wrapper} {new : Option Wrapper}
    (h : OneOwner heap) (hobject : heap.objects name = some wrapper) (hnew : Vacant new)
    (closed : Bool) : OneOwner ((heap.releaseNative wrapper closed).put name new) := by
  have hsane := h.sane name wrapper hobject
  have hnone : ∀ id, new.bind Wrapper.native ≠ some (.owned id) := by
    intro id
    rw [hnew.native]
    exact fun heq ↦ nomatch heq
  unfold Heap.releaseNative
  cases hnative : wrapper.native with
  | none =>
    refine oneOwner_put h (fun id hheld ↦ ?_) hnone fun _ hslot ↦ hnew.sane hslot _
    exact nomatch hnative.symm.trans ((holds_eq hobject).symm.trans hheld)
  | some handle =>
    cases handle with
    | owned id =>
      exact oneOwner_release_owned h hobject hnative
        (release_finished (hsane.owned id hnative) closed) hnew
    | borrowed id =>
      have howning := hsane.borrowed id hnative
      have hunchanged : heap.emit (.borrowed id) (wrapper.release closed) = heap := by
        rw [release_borrowed howning (hsane.borrows howning), Heap.emit, List.map_nil,
          List.append_nil]
      change OneOwner ((heap.emit (.borrowed id) (wrapper.release closed)).put name new)
      rw [hunchanged]
      refine oneOwner_put h (fun each hheld ↦ ?_) hnone fun _ hslot ↦ hnew.sane hslot _
      exact nomatch hnative.symm.trans ((holds_eq hobject).symm.trans hheld)

/-- A new object around a handle that nobody had before. -/
theorem oneOwner_alloc {heap : Heap} {name : ℕ} {wrapper : Wrapper} (h : OneOwner heap)
    (hname : heap.objects name = none) (hnative : wrapper.native = some (.owned heap.next))
    (howning : wrapper.owning = true) (hreplied : wrapper.replied = false) :
    OneOwner ({ heap with next := heap.next + 1 }.put name (some wrapper)) := by
  have hholds : ∀ other, ({ heap with next := heap.next + 1 }.put name (some wrapper)).holds other =
      if other = name then some (.owned heap.next) else heap.holds other := by
    intro other
    rw [holds_put, Option.bind_some, hnative]
    rfl
  have hfresh : ∀ other, heap.holds other ≠ some (.owned heap.next) := by
    intro other hheld
    exact absurd (h.live other heap.next hheld).1 (Nat.lt_irrefl _)
  have hunused : callsOn (.owned heap.next) heap.calls = [] := h.unborn heap.next (Nat.le_refl _)
  constructor
  · intro other otherWrapper hother
    rw [objects_put] at hother
    split_ifs at hother with hsame
    · obtain rfl := Option.some.inj hother
      exact Sane.of_unused hnative howning hreplied hunused
    · exact h.sane other otherWrapper hother
  · intro first second id hfirst hsecond
    rw [hholds] at hfirst hsecond
    split_ifs at hfirst hsecond with hone htwo htwo
    · rw [hone, htwo]
    · exact absurd (hsecond.trans hfirst.symm) (hfresh second)
    · exact absurd (hfirst.trans hsecond.symm) (hfresh first)
    · exact h.unique first second id hfirst hsecond
  · intro other id hheld
    rw [hholds] at hheld
    split_ifs at hheld
    · obtain rfl := Handle.owned.inj (Option.some.inj hheld)
      refine ⟨Nat.lt_succ_self _, ?_⟩
      change Unreleased (callsOn (.owned heap.next) heap.calls)
      rw [hunused]
      exact fun _ hmem ↦ absurd hmem List.not_mem_nil
    · obtain ⟨hlt, hlive⟩ := h.live other id hheld
      exact ⟨Nat.lt_succ_of_lt hlt, hlive⟩
  · intro id hlt
    rcases Nat.lt_succ_iff_lt_or_eq.mp hlt with hold | rfl
    · refine (h.settled id hold).imp_left ?_
      rintro ⟨other, hheld⟩
      refine ⟨other, ?_⟩
      have hdiffers : other ≠ name := by
        rintro rfl
        rw [Heap.holds, hname] at hheld
        exact nomatch hheld
      rw [hholds, if_neg hdiffers]
      exact hheld
    · exact .inl ⟨name, by rw [hholds, if_pos rfl]⟩
  · exact fun id hle ↦ h.unborn id (Nat.le_of_succ_le hle)
  · exact h.borrowed

/-! ### What an operation does -/

/-- A method that uses the handle leaves the object what it is, and marks a message as
answered exactly when it answers. -/
structure Uses (wrapper after : Wrapper) (call : NativeCall) : Prop where
  unreleased : call.isRelease = false
  kind : after.kind = wrapper.kind
  native : after.native = wrapper.native
  owning : after.owning = wrapper.owning
  replied : wrapper.kind = .message →
    (after.replied = true ↔ wrapper.replied = true ∨ call.isReply = true)

/-- The effects that operations have. -/
inductive Effect (heap : Heap) : Heap → Prop
  | nothing : Effect heap heap
  | adopts {name : ℕ} (hname : heap.objects name = none) (kind : Kind) (isOpen : Bool)
    (adoption : Adoption) : Effect heap (heap.adopt name kind isOpen adoption)
  | transfers {name other : ℕ} {wrapper : Wrapper} (hname : heap.objects name = none)
    (hother : heap.objects other = some wrapper) : Effect heap (heap.transfer name other wrapper)
  | moves {name other : ℕ} {target source : Wrapper} (htarget : heap.objects name = some target)
    (hsource : heap.objects other = some source) (closed : Bool) :
    Effect heap (heap.moveAssign name other target source closed)
  | destroys {name : ℕ} {wrapper : Wrapper} (hname : heap.objects name = some wrapper)
    (closed : Bool) : Effect heap (heap.destroy name wrapper closed)
  | uses {name : ℕ} {wrapper after : Wrapper} {call : NativeCall}
    (hname : heap.objects name = some wrapper) (huses : Uses wrapper after call) :
    Effect heap (heap.useNative name wrapper after call)
  | closes {name : ℕ} {file : Wrapper} (hname : heap.objects name = some file)
    (hkind : file.kind = .file) : Effect heap (heap.closeFile name file)

theorem uses_of_kind_ne {wrapper after : Wrapper} {call : NativeCall} {kind : Kind}
    (hkind : wrapper.kind = kind) (hmessage : kind ≠ .message) (hcall : call.isRelease = false)
    (hsame : after.kind = wrapper.kind ∧ after.native = wrapper.native ∧
      after.owning = wrapper.owning) : Uses wrapper after call :=
  ⟨hcall, hsame.1, hsame.2.1, hsame.2.2, fun h ↦ absurd (hkind.symm.trans h) hmessage⟩

theorem effect_apply (heap : Heap) (op : Op) : Effect heap (op.apply heap) := by
  cases op with
  | adopt name kind adoption isOpen =>
    simp only [Op.apply]
    split
    · exact .adopts ‹_› kind isOpen adoption
    · exact .nothing
  | moveConstruct name other =>
    simp only [Op.apply]
    split
    · exact .transfers ‹_› ‹_›
    · exact .nothing
  | moveAssign name other closed =>
    simp only [Op.apply]
    split
    · split_ifs
      · exact .moves ‹_› ‹_› closed
      · exact .nothing
    · exact .nothing
  | destroy name closed =>
    simp only [Op.apply]
    split
    · exact .destroys ‹_› closed
    · exact .nothing
  | use name =>
    simp only [Op.apply]
    split
    · exact .uses ‹_› ⟨rfl, rfl, rfl, rfl, fun _ ↦ by simp [NativeCall.isReply]⟩
    · exact .nothing
  | openSession name opened =>
    simp only [Op.apply]
    split
    · split_ifs with hkind
      · exact .uses ‹_› (uses_of_kind_ne hkind (by decide) rfl ⟨rfl, rfl, rfl⟩)
      · exact .nothing
    · exact .nothing
  | closeChannel name =>
    simp only [Op.apply]
    split
    · split_ifs with hkind
      · exact .uses ‹_› (uses_of_kind_ne hkind (by decide) rfl ⟨rfl, rfl, rfl⟩)
      · exact .nothing
    · exact .nothing
  | closeFile name =>
    simp only [Op.apply]
    split
    · split_ifs with hkind
      · exact .closes ‹_› hkind
      · exact .nothing
    · exact .nothing
  | reply name answer =>
    simp only [Op.apply]
    split
    · split_ifs
      · exact .uses ‹_› ⟨rfl, rfl, rfl, rfl, fun _ ↦ by simp [NativeCall.isReply]⟩
      · exact .nothing
    · exact .nothing

/-! ### Runs -/

theorem vacant_of_objects_none {heap : Heap} {name : ℕ} (h : heap.objects name = none) (id : ℕ) :
    heap.holds name ≠ some (.owned id) := by
  rw [Heap.holds, h]
  exact fun heq ↦ nomatch heq

/-- `Channel::from_native` asks for the state of the channel it has just been given. -/
theorem oneOwner_construct {heap : Heap} {name : ℕ} {kind : Kind} {handle : Handle}
    {owning isOpen : Bool}
    (h : ∀ isOpen, OneOwner (heap.put name (some { kind, native := some handle, owning, isOpen }))) :
    OneOwner (heap.construct name kind handle owning isOpen) := by
  unfold Heap.construct
  split_ifs with hkind
  · have hsame : (heap.emit handle [.sshChannelIsOpen]).put name
          (some { kind, native := some handle, owning, isOpen }) =
        ((heap.put name (some { kind, native := some handle, owning, isOpen })).emit handle
          [.sshChannelIsOpen]).put name (some { kind, native := some handle, owning, isOpen }) := by
      simp [Heap.put, Heap.emit]
    have hput := h isOpen
    have hobject := (objects_put heap name name
      (some { kind, native := some handle, owning, isOpen })).trans (if_pos rfl)
    rw [hsame]
    refine oneOwner_use hput hobject rfl rfl ?_ rfl
    refine (hput.sane name _ hobject).of_callsOn_eq fun held hmessage ↦ ?_
    exact nomatch hkind.symm.trans hmessage
  · exact h false

theorem oneOwner_adopt {heap : Heap} {name : ℕ} (h : OneOwner heap)
    (hname : heap.objects name = none) (kind : Kind) (isOpen : Bool) (adoption : Adoption) :
    OneOwner (heap.adopt name kind isOpen adoption) := by
  cases adoption with
  | null =>
    have hvacant : Vacant (some { kind : Wrapper }) := by
      intro wrapper hwrapper
      obtain rfl := Option.some.inj hwrapper
      exact ⟨rfl, fun hfalse ↦ (nomatch hfalse)⟩
    refine oneOwner_put h (vacant_of_objects_none hname) ?_ fun _ hslot ↦ hvacant.sane hslot _
    exact fun id heq ↦ (nomatch heq)
  | owning => exact oneOwner_construct fun _ ↦ oneOwner_alloc h hname rfl rfl rfl
  | borrowed id =>
    unfold Heap.adopt
    split_ifs with hkind
    · refine oneOwner_construct fun open' ↦ ?_
      refine oneOwner_put h (vacant_of_objects_none hname) (fun each heq ↦ (nomatch heq)) ?_
      intro wrapper hwrapper
      obtain rfl := Option.some.inj hwrapper
      refine ⟨fun _ ↦ hkind, fun each heq ↦ (nomatch heq), fun _ _ ↦ rfl, ?_⟩
      intro hmessage
      rcases hkind with hchannel | hkey
      · exact nomatch hmessage.symm.trans hchannel
      · exact nomatch hmessage.symm.trans hkey
    · exact h

theorem oneOwner_useNative {heap : Heap} {name : ℕ} {wrapper after : Wrapper} {call : NativeCall}
    (h : OneOwner heap) (hobject : heap.objects name = some wrapper)
    (huses : Uses wrapper after call) : OneOwner (heap.useNative name wrapper after call) := by
  unfold Heap.useNative
  cases hheld : wrapper.native with
  | none => exact h
  | some handle =>
    have hsane := h.sane name wrapper hobject
    refine oneOwner_use h hobject hheld huses.unreleased ⟨?_, ?_, ?_, ?_⟩
      (huses.native.trans hheld)
    · rw [huses.owning, huses.kind]
      exact hsane.borrows
    · rw [huses.owning, huses.native]
      exact hsane.owned
    · rw [huses.owning, huses.native]
      exact hsane.borrowed
    · rw [huses.kind, huses.native]
      intro hmessage other hother
      obtain rfl := Option.some.inj (hheld.symm.trans hother)
      rw [huses.replied hmessage, callsOn_emit, if_pos rfl, answered_append,
        hsane.replied hmessage handle hheld]
      simp [Answered]

theorem oneOwner_closeFile {heap : Heap} {name : ℕ} {file : Wrapper} (h : OneOwner heap)
    (hobject : heap.objects name = some file) (hkind : file.kind = .file) :
    OneOwner (heap.closeFile name file) := by
  have hrelease : file.release false = [.sftpClose] := by rw [Wrapper.release, hkind]
  have hreleased := oneOwner_releaseNative h hobject (h.vacant_of_native hobject) false
  unfold Heap.closeFile
  cases hnative : file.native with
  | none => exact h
  | some handle =>
    rw [Heap.releaseNative, hnative, hrelease] at hreleased
    exact hreleased

theorem oneOwner_moveAssign {heap : Heap} {name other : ℕ} {target source : Wrapper}
    (h : OneOwner heap) (htarget : heap.objects name = some target)
    (hsource : heap.objects other = some source) (closed : Bool) :
    OneOwner (heap.moveAssign name other target source closed) := by
  unfold Heap.moveAssign
  split_ifs with hself
  · exact h
  · -- the target is emptied before it is overwritten
    have hemptied := oneOwner_releaseNative h htarget (h.vacant_of_native htarget) closed
    have hvacant : ((heap.releaseNative target closed).put name
        (some { target with native := none })).holds name = none := by
      rw [holds_put, if_pos rfl]
      rfl
    have hkept : ((heap.releaseNative target closed).put name
        (some { target with native := none })).objects other = some source := by
      rw [objects_put, if_neg (Ne.symm hself), ← hsource]
      unfold Heap.releaseNative
      split <;> rfl
    have htransfer := oneOwner_transfer hemptied hvacant hkept
    simpa [Heap.transfer, Heap.put] using htransfer

theorem OneOwner.effect {heap after : Heap} (h : OneOwner heap) (heffect : Effect heap after) :
    OneOwner after := by
  cases heffect with
  | nothing => exact h
  | adopts hname kind isOpen adoption => exact oneOwner_adopt h hname kind isOpen adoption
  | transfers hname hother => exact oneOwner_transfer h (by rw [Heap.holds, hname]; rfl) hother
  | moves htarget hsource closed => exact oneOwner_moveAssign h htarget hsource closed
  | destroys hname closed => exact oneOwner_releaseNative h hname vacant_none closed
  | uses hname huses => exact oneOwner_useNative h hname huses
  | closes hname hkind => exact oneOwner_closeFile h hname hkind

theorem oneOwner_step (op : Op) : Keeps OneOwner (step op) :=
  fun heap h ↦ h.effect (effect_apply heap op)

theorem oneOwner_start : OneOwner {} where
  sane := fun _ _ hnone ↦ nomatch hnone
  unique := fun _ _ _ hnone ↦ nomatch hnone
  live := fun _ _ hnone ↦ nomatch hnone
  settled := fun _ hlt ↦ absurd hlt (Nat.not_lt_zero _)
  unborn := fun _ _ ↦ rfl
  borrowed := fun _ _ hmem ↦ absurd hmem List.not_mem_nil

/-- Nothing is left of the program. -/
def AllGone (heap : Heap) : Prop := ∀ name, heap.objects name = none

/-- The operation moves from this variable to another one. -/
def MovesFrom (heap : Heap) (source : ℕ) : Op → Prop
  | .moveConstruct name other =>
    other = source ∧ heap.objects name = none ∧ (heap.objects other).isSome
  | .moveAssign name other _ =>
    other = source ∧ name ≠ other ∧ ∃ target moved, heap.objects name = some target ∧
      heap.objects other = some moved ∧ target.kind = moved.kind
  | _ => False

/-- The calls an operation makes with one handle. -/
def newCalls (heap : Heap) (op : Op) (handle : Handle) : List NativeCall :=
  callsOn handle ((op.apply heap).calls.drop heap.calls.length)

theorem movesFrom_vacant {heap : Heap} {source : ℕ} {op : Op} (h : MovesFrom heap source op) :
    ∃ wrapper, (op.apply heap).objects source = some wrapper ∧ wrapper.native = none := by
  cases op with
  | moveConstruct name other =>
    obtain ⟨rfl, hname, hother⟩ := h
    obtain ⟨wrapper, hwrapper⟩ := Option.isSome_iff_exists.mp hother
    refine ⟨wrapper.movedFrom, ?_, movedFrom_native wrapper⟩
    simp only [Op.apply, hname, hwrapper]
    rw [Heap.transfer, objects_put, if_pos rfl]
  | moveAssign name other closed =>
    obtain ⟨rfl, hne, target, moved, htarget, hmoved, hkind⟩ := h
    refine ⟨moved.movedFrom, ?_, movedFrom_native moved⟩
    simp only [Op.apply, htarget, hmoved]
    rw [if_pos hkind, Heap.moveAssign, if_neg hne, Heap.transfer, objects_put, if_pos rfl]
  | adopt _ _ _ _ => exact h.elim
  | destroy _ _ => exact h.elim
  | use _ => exact h.elim
  | openSession _ _ => exact h.elim
  | closeChannel _ => exact h.elim
  | closeFile _ => exact h.elim
  | reply _ _ => exact h.elim

/-- The calls an operation adds: with one handle, and if they free a message they are
the release of the object that holds it. -/
def Adds (heap after : Heap) : Prop :=
  ∃ handle calls, after.calls = heap.calls ++ calls.map (Prod.mk handle) ∧
    (.sshMessageFree ∉ calls ∨ ∃ name wrapper closed, heap.objects name = some wrapper ∧
      wrapper.native = some handle ∧ calls = wrapper.release closed)

theorem adds_of_calls_eq {heap after : Heap} (h : after.calls = heap.calls) : Adds heap after :=
  ⟨.owned 0, [], by rw [h, List.map_nil, List.append_nil], .inl List.not_mem_nil⟩

theorem adds_releaseNative {heap after : Heap} {name : ℕ} {wrapper : Wrapper} {closed : Bool}
    (hobject : heap.objects name = some wrapper)
    (h : after.calls = (heap.releaseNative wrapper closed).calls) : Adds heap after := by
  unfold Heap.releaseNative at h
  cases hnative : wrapper.native with
  | none =>
    rw [hnative] at h
    exact adds_of_calls_eq h
  | some handle =>
    rw [hnative] at h
    exact ⟨handle, wrapper.release closed, h, .inr ⟨name, wrapper, closed, hobject, hnative, rfl⟩⟩

theorem adds_useNative {heap : Heap} {name : ℕ} {wrapper after : Wrapper} {call : NativeCall}
    (hcall : call.isRelease = false) : Adds heap (heap.useNative name wrapper after call) := by
  unfold Heap.useNative
  split
  · exact adds_of_calls_eq rfl
  · next handle hnative =>
    refine ⟨handle, [call], rfl, .inl fun hmem ↦ ?_⟩
    obtain rfl := List.mem_singleton.mp hmem
    exact nomatch hcall

theorem adds_construct {heap before : Heap} {name : ℕ} {kind : Kind} {handle : Handle}
    {owning isOpen : Bool} (h : before.calls = heap.calls) :
    Adds heap (before.construct name kind handle owning isOpen) := by
  unfold Heap.construct
  split_ifs
  · refine ⟨handle, [.sshChannelIsOpen], ?_, .inl fun hmem ↦ ?_⟩
    · change before.calls ++ _ = _
      rw [h]
    · exact nomatch List.mem_singleton.mp hmem
  · exact adds_of_calls_eq h

theorem adds_adopt (heap : Heap) (name : ℕ) (kind : Kind) (isOpen : Bool) (adoption : Adoption) :
    Adds heap (heap.adopt name kind isOpen adoption) := by
  cases adoption with
  | null => exact adds_of_calls_eq rfl
  | owning => exact adds_construct rfl
  | borrowed id =>
    unfold Heap.adopt
    split_ifs
    · exact adds_construct rfl
    · exact adds_of_calls_eq rfl

theorem adds_closeFile (heap : Heap) (name : ℕ) (file : Wrapper) :
    Adds heap (heap.closeFile name file) := by
  unfold Heap.closeFile
  split
  · exact adds_of_calls_eq rfl
  · next handle _ =>
    exact ⟨handle, [.sftpClose], rfl, .inl fun hmem ↦ nomatch List.mem_singleton.mp hmem⟩

theorem Effect.adds {heap after : Heap} (heffect : Effect heap after) : Adds heap after := by
  cases heffect with
  | nothing => exact adds_of_calls_eq rfl
  | adopts _ kind isOpen adoption => exact adds_adopt heap _ kind isOpen adoption
  | transfers _ _ => exact adds_of_calls_eq rfl
  | moves htarget _ closed =>
    unfold Heap.moveAssign
    split_ifs
    · exact adds_of_calls_eq rfl
    · exact adds_releaseNative htarget rfl
  | destroys hname closed => exact adds_releaseNative hname rfl
  | uses _ huses => exact adds_useNative huses.unreleased
  | closes _ _ => exact adds_closeFile heap _ _

/-- Only a message is freed as a message. -/
theorem kind_of_sshMessageFree {wrapper : Wrapper} {closed : Bool}
    (h : .sshMessageFree ∈ wrapper.release closed) : wrapper.kind = .message := by
  by_contra hkind
  unfold Wrapper.release at h
  split at h
  · unfold Channel.release at h
    split_ifs at h <;> simp at h
  · unfold Key.release at h
    split_ifs at h <;> simp at h
  all_goals first | exact absurd ‹wrapper.kind = .message› hkind | simp at h

theorem newCalls_message {heap : Heap} (h : OneOwner heap) {op : Op} {handle : Handle}
    (hfreed : .sshMessageFree ∈ newCalls heap op handle) :
    newCalls heap op handle = if Answered (callsOn handle heap.calls) then [.sshMessageFree]
      else [.messageReply .default, .sshMessageFree] := by
  obtain ⟨held, calls, happended, hcalls⟩ := (effect_apply heap op).adds
  have hnew : newCalls heap op handle = if held = handle then calls else [] := by
    rw [newCalls, happended, List.drop_left, callsOn_map]
  rw [hnew] at hfreed ⊢
  split_ifs at hfreed with hsame
  · subst hsame
    rw [if_pos rfl]
    obtain ⟨name, wrapper, closed, hobject, hnative, rfl⟩ :=
      hcalls.resolve_left fun hnone ↦ hnone hfreed
    have hkind := kind_of_sshMessageFree hfreed
    have hreplied := (h.sane name wrapper hobject).replied hkind held hnative
    have hrelease : wrapper.release closed = Message.release wrapper := by
      rw [Wrapper.release, hkind]
    rw [hrelease, Message.release]
    by_cases hanswered : Answered (callsOn held heap.calls)
    · rw [if_pos (hreplied.mpr hanswered), if_pos hanswered]
      rfl
    · rw [if_neg (mt hreplied.mp hanswered), if_neg hanswered]
      rfl
  · exact absurd hfreed List.not_mem_nil

/-- For every program over variables of the eleven classes: a borrowed handle is never
released; an owned one is released at most once and not used after that, and has been
released when all variables are gone; a variable that was moved from holds nothing;
and a message that is freed without an answer gets one default reply right before. -/
theorem handles_one_owner (program : List Op) :
    (∀ id, Unreleased (callsOn (.borrowed id) (stateAfter step program {}).calls)) ∧
      (∀ id, Unreleased (callsOn (.owned id) (stateAfter step program {}).calls) ∨
        Finished (callsOn (.owned id) (stateAfter step program {}).calls)) ∧
      (AllGone (stateAfter step program {}) → ∀ id, id < (stateAfter step program {}).next →
        Finished (callsOn (.owned id) (stateAfter step program {}).calls)) ∧
      (∀ op source, MovesFrom (stateAfter step program {}) source op → ∃ wrapper,
        (op.apply (stateAfter step program {})).objects source = some wrapper ∧
          wrapper.native = none) ∧
      ∀ op handle, .sshMessageFree ∈ newCalls (stateAfter step program {}) op handle →
        newCalls (stateAfter step program {}) op handle =
          if Answered (callsOn handle (stateAfter step program {}).calls) then [.sshMessageFree]
          else [.messageReply .default, .sshMessageFree] := by
  have h : OneOwner (stateAfter step program {}) :=
    invariant_of_keeps oneOwner_step program oneOwner_start
  refine ⟨h.borrowed, fun id ↦ ?_, fun hgone id hlt ↦ ?_, ?_, ?_⟩
  · by_cases hlt : id < (stateAfter step program {}).next
    · rcases h.settled id hlt with ⟨name, hheld⟩ | hfinished
      · exact .inl (h.live name id hheld).2
      · exact .inr hfinished
    · rw [h.unborn id (Nat.le_of_not_lt hlt)]
      exact .inl fun _ hmem ↦ absurd hmem List.not_mem_nil
  · refine (h.settled id hlt).resolve_left ?_
    rintro ⟨name, hheld⟩
    exact vacant_of_objects_none (hgone name) id hheld
  · exact fun op source hmoves ↦ movesFrom_vacant hmoves
  · exact fun op handle hfreed ↦ newCalls_message h hfreed

-- an unanswered message that was moved, and a borrowed key
example : (stateAfter step [.adopt 0 .message .owning false, .adopt 1 .key (.borrowed 7) false,
    .moveConstruct 2 0, .destroy 0 false, .destroy 2 false, .destroy 1 false] {}).calls =
      [(.owned 0, .messageReply .default), (.owned 0, .sshMessageFree)] := rfl

end LibSshpp.Lifetime.Handles
