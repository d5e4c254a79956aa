import LibSshpp.Program.StateTriple
import Mathlib.Data.Finset.Insert
import Mathlib.Data.Fintype.Defs
import Mathlib.Logic.Equiv.Basic

/-!
What keeps a parent alive for its children. `Session`, `Channel` and `Sftp` share
the `SessionCore`, whose last owner frees the `ssh_session`, and the two children
free their own handle before they let go of the core. `File` and `Directory` share
the core as well, but of the SFTP session they came from they keep only the raw
pointer, which goes with its `Sftp`.
-/

set_option autoImplicit false
set_option relaxedAutoImplicit false

namespace LibSshpp.Lifetime.Parents

open Program

inductive Kind
  | session | channel | sftp | file | directory
  deriving DecidableEq, Repr

/-- A native handle with the handles it was made from. Files and directories are made
from an SFTP session, which is made from a session as channels are. -/
inductive Handle
  | session (id : ℕ)
  | channel (session id : ℕ)
  | sftp (session id : ℕ)
  | entry (session sftp id : ℕ)
  deriving DecidableEq, Repr

namespace Handle

def id : Handle → ℕ
  | .session id | .channel _ id | .sftp _ id | .entry _ _ id => id

def parent : Handle → Option Handle
  | .session _ => none
  | .channel core _ | .sftp core _ => some (.session core)
  | .entry core owner _ => some (.sftp core owner)

/-- The files and directories. -/
def isEntry : Handle → Bool
  | .entry _ _ _ => true
  | _ => false

end Handle

/-- The native calls: those that free a handle, `ssh_disconnect`, and for each kind of
handle the others. -/
inductive NativeCall
  | sshDisconnect | sshFree | ssh
  | sshChannelOpenSession | sshChannelIsClosed | sshChannelClose | sshChannelFree | sshChannel
  | sftpInit | sftpFree | sftp
  | sftpClose | sftpClosedir | sftpReadOrWrite | sftpReaddir
  deriving DecidableEq, Repr

/-- The call frees what others are made from. -/
def NativeCall.freesParent : NativeCall → Bool
  | .sshFree | .sftpFree => true
  | _ => false

structure Call where
  name : NativeCall
  handle : Handle
  deriving DecidableEq, Repr

/-- A wrapper object. A `Session` holds its handle through the core alone; `sftp` is
the raw pointer of a `File` or `Directory`. -/
structure Object where
  kind : Kind
  native : Option Handle := none
  core : Option ℕ := none
  sftp : Option Handle := none
  isOpen : Bool := false
  deriving DecidableEq, Repr

/-- The living objects by the names of their variables, finitely many. -/
structure Store where
  lookup : ℕ → Option Object := fun _ ↦ none
  domain : Finset ℕ := ∅
  covers : ∀ name, lookup name ≠ none → name ∈ domain

namespace Store

def put (store : Store) (name : ℕ) (object : Option Object) : Store where
  lookup := Function.update store.lookup name object
  domain := insert name store.domain
  covers := by
    intro other hother
    rw [Finset.mem_insert]
    by_cases hsame : other = name
    · exact .inl hsame
    · rw [Function.update_of_ne hsame] at hother
      exact .inr (store.covers other hother)

/-- Some object holds a pointer to this core. -/
def Shares (store : Store) (core : ℕ) : Prop :=
  ∃ name ∈ store.domain, (store.lookup name).bind Object.core = some core

instance (store : Store) (core : ℕ) : Decidable (store.Shares core) :=
  inferInstanceAs (Decidable (∃ name ∈ store.domain, _))

theorem shares_iff (store : Store) (core : ℕ) :
    store.Shares core ↔ ∃ name object, store.lookup name = some object ∧
      object.core = some core := by
  constructor
  · rintro ⟨name, -, hcore⟩
    obtain ⟨object, hobject, hcore⟩ := Option.bind_eq_some_iff.mp hcore
    exact ⟨name, object, hobject, hcore⟩
  · rintro ⟨name, object, hobject, hcore⟩
    refine ⟨name, store.covers name ?_, ?_⟩
    · rw [hobject]
      exact Option.some_ne_none object
    · rw [hobject]
      exact hcore

theorem lookup_put (store : Store) (name other : ℕ) (object : Option Object) :
    (store.put name object).lookup other = if other = name then object else store.lookup other := by
  by_cases hsame : other = name
  · subst hsame
    simp [put]
  · simp [put, hsame]

theorem put_put (store : Store) (name : ℕ) (first second : Option Object) :
    (store.put name first).put name second = store.put name second := by
  simp [put]

end Store

structure State where
  store : Store := { covers := fun _ h ↦ absurd rfl h }
  next : ℕ := 0
  calls : List Call := []

namespace State

def emit (state : State) (calls : List Call) : State :=
  { state with calls := state.calls ++ calls }

def put (state : State) (name : ℕ) (object : Option Object) : State :=
  { state with store := state.store.put name object }

theorem put_put (state : State) (name : ℕ) (first second : Option Object) :
    (state.put name first).put name second = state.put name second := by
  rw [put, put, Store.put_put, put]

/-- A pointer to the core is gone, and with the last one the core: `~SessionCore`. -/
def letGo (state : State) : Option ℕ → State
  | none => state
  | some core =>
    if state.store.Shares core then state
    else state.emit [⟨.sshDisconnect, .session core⟩, ⟨.sshFree, .session core⟩]

end State

/-- What the destructor of an object, or an assignment to it, does with its handle;
`closed` is the answer of `ssh_channel_is_closed`. -/
def Object.release (object : Object) (closed : Bool) : List Call :=
  match object.native with
  | none => []
  | some handle =>
    match object.kind with
    | .session => []
    | .channel =>
      (if object.isOpen then
        ⟨.sshChannelIsClosed, handle⟩ :: (if closed then [] else [⟨.sshChannelClose, handle⟩])
      else []) ++ [⟨.sshChannelFree, handle⟩]
    | .sftp => [⟨.sftpFree, handle⟩]
    | .file => [⟨.sftpClose, handle⟩]
    | .directory => [⟨.sftpClosedir, handle⟩]

/-- What a move leaves behind: neither handle nor core. -/
def Object.movedFrom (object : Object) : Object :=
  { object with native := none, core := none, isOpen := false }

/-- One operation of a program, with what libssh answers. A new object goes into a
variable of the given name. -/
inductive Op
  | newSession (name : ℕ) (allocated : Bool)
  | openChannel (name session : ℕ) (allocated opened : Bool)
  | openSftp (name session : ℕ) (allocated initialised : Bool)
  | open (name sftp : ℕ) (opened : Bool)
  | openDirectory (name sftp : ℕ) (opened : Bool)
  | use (name : ℕ)
  | closeFile (name : ℕ)
  | moveConstruct (name other : ℕ)
  | moveAssign (name other : ℕ) (closed : Bool)
  | destroy (name : ℕ) (closed : Bool)
  deriving DecidableEq, Repr

namespace State

/-- `Session::Session(const SessionOptions&)`. -/
def newSession (state : State) (name : ℕ) (allocated : Bool) : State :=
  if allocated then
    { state with next := state.next + 1 }.put name (some { kind := .session, core := state.next })
  else state.put name (some { kind := .session })

/-- `Session::try_open_channel`: a channel that cannot be opened is freed again. -/
def openChannel (state : State) (name core : ℕ) (allocated opened : Bool) : State :=
  if allocated then
    let handle := .channel core state.next
    let state := { state with next := state.next + 1 }.emit
      [⟨.ssh, .session core⟩, ⟨.sshChannelOpenSession, handle⟩]
    if opened then
      state.put name (some { kind := .channel, native := some handle, core, isOpen := true })
    else state.emit [⟨.sshChannelFree, handle⟩]
  else state.emit [⟨.ssh, .session core⟩]

/-- `Session::try_open_sftp`. -/
def openSftp (state : State) (name core : ℕ) (allocated initialised : Bool) : State :=
  if allocated then
    let handle := .sftp core state.next
    let state := { state with next := state.next + 1 }.emit
      [⟨.ssh, .session core⟩, ⟨.sftpInit, handle⟩]
    if initialised then state.put name (some { kind := .sftp, native := some handle, core })
    else state.emit [⟨.sftpFree, handle⟩]
  else state.emit [⟨.ssh, .session core⟩]

/-- `Sftp::try_open` and `Sftp::try_open_directory`. -/
def openEntry (state : State) (kind : Kind) (name : ℕ) (sftp : Object) (opened : Bool) : State :=
  match sftp.native with
  | some (.sftp session id) =>
    let after := state.emit [⟨.sftp, .sftp session id⟩]
    if opened then
      { after with next := after.next + 1 }.put name (some {
        kind, native := some (.entry session id after.next), core := sftp.core
        sftp := some (.sftp session id) })
    else after
  | _ => state

/-- A method that passes the handle to libssh. -/
def use (state : State) (object : Object) : State :=
  match object.kind, object.native, object.core with
  | .session, _, some core => state.emit [⟨.ssh, .session core⟩]
  | .channel, some handle, _ => state.emit [⟨.sshChannel, handle⟩]
  | .sftp, some handle, _ => state.emit [⟨.sftp, handle⟩]
  | .file, some handle, _ => state.emit [⟨.sftpReadOrWrite, handle⟩]
  | .directory, some handle, _ => state.emit [⟨.sftpReaddir, handle⟩]
  | _, _, _ => state

/-- `File::try_close`. -/
def closeFile (state : State) (name : ℕ) (file : Object) : State :=
  (state.emit (file.release false)).put name (some { file with native := none })

def moveConstruct (state : State) (name other : ℕ) (object : Object) : State :=
  (state.put name (some object)).put other (some object.movedFrom)

/-- The old handle is released first and the old core let go last. -/
def moveAssign (state : State) (name other : ℕ) (target source : Object) (closed : Bool) : State :=
  if name = other then state
  else ((state.emit (target.release closed)).moveConstruct name other source).letGo target.core

def destroy (state : State) (name : ℕ) (object : Object) (closed : Bool) : State :=
  ((state.emit (object.release closed)).put name none).letGo object.core

end State

/-- An operation on variables that are not there, or of another class, is no C++
program; it does nothing here. -/
def Op.apply (state : State) : Op → State
  | .newSession name allocated =>
    match state.store.lookup name with
    | none => state.newSession name allocated
    | some _ => state
  | .openChannel name session allocated opened =>
    match state.store.lookup name, state.store.lookup session with
    | none, some { kind := .session, core := some core, .. } =>
      state.openChannel name core allocated opened
    | _, _ => state
  | .openSftp name session allocated initialised =>
    match state.store.lookup name, state.store.lookup session with
    | none, some { kind := .session, core := some core, .. } =>
      state.openSftp name core allocated initialised
    | _, _ => state
  | .open name sftp opened =>
    match state.store.lookup name, state.store.lookup sftp with
    | none, some object =>
      if object.kind = .sftp then state.openEntry .file name object opened else state
    | _, _ => state
  | .openDirectory name sftp opened =>
    match state.store.lookup name, state.store.lookup sftp with
    | none, some object =>
      if object.kind = .sftp then state.openEntry .directory name object opened else state
    | _, _ => state
  | .use name =>
    match state.store.lookup name with
    | some object => state.use object
    | none => state
  | .closeFile name =>
    match state.store.lookup name with
    | some object => if object.kind = .file then state.closeFile name object else state
    | none => state
  | .moveConstruct name other =>
    match state.store.lookup name, state.store.lookup other with
    | none, some object => state.moveConstruct name other object
    | _, _ => state
  | .moveAssign name other closed =>
    match state.store.lookup name, state.store.lookup other with
    | some target, some source =>
      if target.kind = source.kind then state.moveAssign name other target source closed else state
    | _, _ => state
  | .destroy name closed =>
    match state.store.lookup name with
    | some object => state.destroy name object closed
    | none => state

def step (op : Op) : StateM State Unit := fun state ↦ ((), op.apply state)

/-! ### What a trace must not do -/

/-- The handle has been freed. -/
def Freed (handle : Handle) (calls : List Call) : Prop :=
  ∃ call ∈ calls, call.name.freesParent = true ∧ call.handle = handle

/-- No call with a handle of this sort comes after its parent was freed. -/
def ParentsAlive (sort : Handle → Prop) (calls : List Call) : Prop :=
  ∀ before call after, calls = before ++ call :: after → sort call.handle →
    ∀ parent, call.handle.parent = some parent → ¬ Freed parent before

/-- The handles a run answers for: channels and SFTP sessions always, files and
directories only when the run is `guarded`. -/
def AnswersFor (guarded : Prop) (handle : Handle) : Prop := handle.isEntry = false ∨ guarded

theorem freed_append (handle : Handle) (calls more : List Call) :
    Freed handle (calls ++ more) ↔ Freed handle calls ∨ Freed handle more := by
  simp [Freed, or_and_right, exists_or]

theorem not_freed_of_keeps {handle : Handle} {calls : List Call}
    (h : ∀ call ∈ calls, call.name.freesParent = false) : ¬ Freed handle calls := by
  rintro ⟨call, hmem, hfrees, -⟩
  exact nomatch (h call hmem).symm.trans hfrees

/-- Calls whose parents are alive before the first of them, and that free none of
them, go on a trace. -/
theorem ParentsAlive.append {sort : Handle → Prop} {calls more : List Call}
    (h : ParentsAlive sort calls) (hmore : ∀ call ∈ more, sort call.handle →
      ∀ parent, call.handle.parent = some parent → ¬ Freed parent (calls ++ more)) :
    ParentsAlive sort (calls ++ more) := by
  intro before call after hsplit hsort parent hparent hfreed
  rcases List.append_eq_append_iff.mp hsplit with
    ⟨middle, hbefore, hafter⟩ | ⟨middle, hcalls, hrest⟩
  · refine hmore call ?_ hsort parent hparent ?_
    · rw [hafter]
      exact List.mem_append_right _ (List.mem_cons_self ..)
    · rw [hsplit, freed_append]
      exact .inl hfreed
  · cases middle with
    | nil =>
      rw [List.append_nil] at hcalls
      refine hmore call ?_ hsort parent hparent ?_
      · rw [List.nil_append] at hrest
        rw [← hrest]
        exact List.mem_cons_self ..
      · rw [freed_append, hcalls]
        exact .inl hfreed
    | cons first middle =>
      obtain ⟨rfl, -⟩ := List.cons.inj hrest
      exact h before call middle hcalls hsort parent hparent hfreed

/-! ### The session and its children -/

/-- The handle is of the object's class and belongs to the object's parent. -/
def Fits (object : Object) (handle : Handle) : Prop :=
  match object.kind with
  | .session => False
  | .channel => ∃ core id, object.core = some core ∧ handle = .channel core id
  | .sftp => ∃ core id, object.core = some core ∧ handle = .sftp core id
  | .file | .directory => ∃ core sftp id, object.sftp = some (.sftp core sftp) ∧
      handle = .entry core sftp id

/-- What an object holds exists and has not been freed. -/
structure Valid (next : ℕ) (calls : List Call) (object : Object) : Prop where
  core : ∀ core, object.core = some core → core < next ∧ ¬ Freed (.session core) calls
  fits : ∀ handle, object.native = some handle → Fits object handle
  bound : ∀ handle, object.native = some handle → handle.id < next ∧
    ∀ parent, handle.parent = some parent → parent.id < next
  native : ∀ handle, object.native = some handle → ¬ Freed handle calls

/-- The handle a variable holds. -/
def State.holds (state : State) (name : ℕ) : Option Handle :=
  (state.store.lookup name).bind Object.native

/-- The objects hold what exists, each handle is held once, and the trace has been safe. In
a guarded run the parents of the open files and directories are alive as well. -/
structure Sound (guarded : Prop) (state : State) : Prop where
  fresh : ∀ handle, Freed handle state.calls → handle.id < state.next
  valid : ∀ name object, state.store.lookup name = some object →
    Valid state.next state.calls object
  unique : ∀ name other handle, state.holds name = some handle →
    state.holds other = some handle → name = other
  entries : guarded → ∀ name handle parent, state.holds name = some handle →
    handle.isEntry = true → handle.parent = some parent → ¬ Freed parent state.calls
  safe : ParentsAlive (AnswersFor guarded) state.calls

section Sound

variable {guarded : Prop} {state : State}

theorem holds_eq {name : ℕ} {object : Object} (h : state.store.lookup name = some object) :
    state.holds name = object.native := by
  rw [State.holds, h]
  rfl

theorem holds_put (state : State) (name other : ℕ) (new : Option Object) :
    (state.put name new).holds other =
      if other = name then new.bind Object.native else state.holds other := by
  unfold State.holds State.put
  rw [Store.lookup_put]
  split_ifs <;> rfl

/-- A held handle that is no file or directory has its session alive, because its
object shares the core. -/
theorem Valid.session_alive {next : ℕ} {calls : List Call} {object : Object}
    {handle parent : Handle} (h : Valid next calls object) (hnative : object.native = some handle)
    (hentry : handle.isEntry = false) (hparent : handle.parent = some parent) :
    ¬ Freed parent calls := by
  have hfits := h.fits handle hnative
  unfold Fits at hfits
  split at hfits
  · exact hfits.elim
  · obtain ⟨core, id, hcore, rfl⟩ := hfits
    obtain rfl := Option.some.inj hparent
    exact (h.core core hcore).2
  · obtain ⟨core, id, hcore, rfl⟩ := hfits
    obtain rfl := Option.some.inj hparent
    exact (h.core core hcore).2
  · obtain ⟨core, sftp, id, -, rfl⟩ := hfits
    exact nomatch hentry
  · obtain ⟨core, sftp, id, -, rfl⟩ := hfits
    exact nomatch hentry

/-- What the run answers for and a variable holds has a living parent. -/
theorem Sound.parent_alive (h : Sound guarded state) {name : ℕ} {object : Object}
    {handle parent : Handle} (hobject : state.store.lookup name = some object)
    (hnative : object.native = some handle) (hanswers : AnswersFor guarded handle)
    (hparent : handle.parent = some parent) : ¬ Freed parent state.calls := by
  cases hentry : handle.isEntry with
  | false => exact (h.valid name object hobject).session_alive hnative hentry hparent
  | true =>
    have hguarded : guarded := hanswers.resolve_left (by rw [hentry]; exact Bool.noConfusion)
    exact h.entries hguarded name handle parent ((holds_eq hobject).trans hnative) hentry hparent

/-- Calls that free nothing that is still needed, with handles whose parents live. -/
theorem Sound.emit (h : Sound guarded state) {more : List Call}
    (hbound : ∀ handle, Freed handle more → handle.id < state.next)
    (hcore : ∀ name object core, state.store.lookup name = some object →
      object.core = some core → ¬ Freed (.session core) more)
    (hheld : ∀ name handle, state.holds name = some handle → ¬ Freed handle more)
    (hentries : guarded → ∀ name handle parent, state.holds name = some handle →
      handle.isEntry = true → handle.parent = some parent → ¬ Freed parent more)
    (hsafe : ∀ call ∈ more, AnswersFor guarded call.handle → ∀ parent,
      call.handle.parent = some parent → ¬ Freed parent (state.calls ++ more)) :
    Sound guarded (state.emit more) where
  fresh := by
    intro handle hfreed
    rcases (freed_append _ _ _).mp hfreed with hold | hnew
    · exact h.fresh handle hold
    · exact hbound handle hnew
  valid := by
    intro name object hobject
    have hvalid := h.valid name object hobject
    refine ⟨fun core heq ↦ ⟨(hvalid.core core heq).1, ?_⟩, hvalid.fits, hvalid.bound,
      fun handle heq ↦ ?_⟩
    · exact fun hfreed ↦ ((freed_append _ _ _).mp hfreed).elim (hvalid.core core heq).2
        (hcore name object core hobject heq)
    · exact fun hfreed ↦ ((freed_append _ _ _).mp hfreed).elim (hvalid.native handle heq)
        (hheld name handle ((holds_eq hobject).trans heq))
  unique := h.unique
  entries := by
    intro hguarded name handle parent hname hentry hparent hfreed
    exact ((freed_append _ _ _).mp hfreed).elim
      (h.entries hguarded name handle parent hname hentry hparent)
      (hentries hguarded name handle parent hname hentry hparent)
  safe := h.safe.append hsafe

/-- Calls that free nothing. -/
theorem Sound.emit_keeping (h : Sound guarded state) {more : List Call}
    (hkeeps : ∀ call ∈ more, call.name.freesParent = false)
    (hsafe : ∀ call ∈ more, AnswersFor guarded call.handle → ∀ parent,
      call.handle.parent = some parent → ¬ Freed parent state.calls) :
    Sound guarded (state.emit more) := by
  have hnone : ∀ handle, ¬ Freed handle more := fun handle ↦ not_freed_of_keeps hkeeps
  refine h.emit (fun handle hfreed ↦ absurd hfreed (hnone handle)) (fun _ _ core _ _ ↦ hnone _)
    (fun _ handle _ ↦ hnone handle) (fun _ _ _ parent _ _ _ ↦ hnone parent) ?_
  intro call hmem hanswers parent hparent hfreed
  exact ((freed_append _ _ _).mp hfreed).elim (hsafe call hmem hanswers parent hparent)
    (hnone parent)

/-- Handles that change hands or are dropped, with no call. -/
theorem Sound.of_perm (h : Sound guarded state) {after : State} (hcalls : after.calls = state.calls)
    (hnext : after.next = state.next) (owner : Equiv.Perm ℕ)
    (hholds : ∀ name handle, after.holds name = some handle →
      state.holds (owner name) = some handle)
    (hvalid : ∀ name object, after.store.lookup name = some object →
      Valid state.next state.calls object) : Sound guarded after where
  fresh := by
    rw [hcalls, hnext]
    exact h.fresh
  valid := by
    rw [hcalls, hnext]
    exact hvalid
  unique := by
    intro name other handle hname hother
    exact owner.injective (h.unique _ _ handle (hholds _ _ hname) (hholds _ _ hother))
  entries := by
    intro hguarded name handle parent hname
    rw [hcalls]
    exact h.entries hguarded _ handle parent (hholds _ _ hname)
  safe := by
    rw [hcalls]
    exact h.safe

/-- One more handle may exist. -/
theorem Sound.bump (h : Sound guarded state) :
    Sound guarded { state with next := state.next + 1 } where
  fresh := fun handle hfreed ↦ Nat.lt_succ_of_lt (h.fresh handle hfreed)
  valid := by
    intro name object hobject
    have hvalid := h.valid name object hobject
    refine ⟨fun core heq ↦ ?_, hvalid.fits, fun handle heq ↦ ?_, hvalid.native⟩
    · exact ⟨Nat.lt_succ_of_lt (hvalid.core core heq).1, (hvalid.core core heq).2⟩
    · refine ⟨Nat.lt_succ_of_lt (hvalid.bound handle heq).1, fun parent hparent ↦ ?_⟩
      exact Nat.lt_succ_of_lt ((hvalid.bound handle heq).2 parent hparent)
  unique := h.unique
  entries := h.entries
  safe := h.safe

/-- A variable that holds no handle afterwards. -/
theorem Sound.put_vacant (h : Sound guarded state) {name : ℕ} {new : Option Object}
    (hnew : new.bind Object.native = none)
    (hvalid : ∀ object, new = some object → Valid state.next state.calls object) :
    Sound guarded (state.put name new) := by
  refine h.of_perm rfl rfl (Equiv.refl ℕ) ?_ ?_
  · intro other handle hother
    rw [holds_put] at hother
    split_ifs at hother
    · exact nomatch hnew.symm.trans hother
    · exact hother
  · intro other object hobject
    rw [State.put, Store.lookup_put] at hobject
    split_ifs at hobject
    · exact hvalid object hobject
    · exact h.valid other object hobject

theorem Valid.vacate {next : ℕ} {calls : List Call} {object : Object}
    (h : Valid next calls object) : Valid next calls { object with native := none } where
  core := h.core
  fits := fun _ hnone ↦ nomatch hnone
  bound := fun _ hnone ↦ nomatch hnone
  native := fun _ hnone ↦ nomatch hnone

/-- A new object around a handle nobody holds. -/
theorem Sound.put_new (h : Sound guarded state) {name : ℕ} {object : Object} {handle : Handle}
    (hvalid : Valid state.next state.calls object)
    (hnative : object.native = some handle) (hunheld : ∀ other, state.holds other ≠ some handle)
    (hparent : guarded → handle.isEntry = true → ∀ parent, handle.parent = some parent →
      ¬ Freed parent state.calls) : Sound guarded (state.put name (some object)) where
  fresh := h.fresh
  valid := by
    intro other found hfound
    rw [State.put, Store.lookup_put] at hfound
    split_ifs at hfound
    · obtain rfl := Option.some.inj hfound
      exact hvalid
    · exact h.valid other found hfound
  unique := by
    intro first second each hfirst hsecond
    rw [holds_put, Option.bind_some, hnative] at hfirst hsecond
    split_ifs at hfirst hsecond with hone htwo htwo
    · rw [hone, htwo]
    · exact absurd (hsecond.trans hfirst.symm) (hunheld second)
    · exact absurd (hfirst.trans hsecond.symm) (hunheld first)
    · exact h.unique first second each hfirst hsecond
  entries := by
    intro hguarded other each parent hother hentry heq
    rw [holds_put, Option.bind_some, hnative] at hother
    split_ifs at hother
    · obtain rfl := Option.some.inj hother
      exact hparent hguarded hentry parent heq
    · exact h.entries hguarded other each parent hother hentry heq
  safe := h.safe

/-- A move to another variable. -/
theorem Sound.moveConstruct (h : Sound guarded state) {name other : ℕ} {object : Object}
    (hother : state.store.lookup other = some object) :
    Sound guarded (state.moveConstruct name other object) := by
  have hvalid := h.valid other object hother
  refine h.of_perm rfl rfl (Equiv.swap name other) ?_ ?_
  · intro each handle heach
    rw [State.moveConstruct, holds_put, holds_put] at heach
    split_ifs at heach with hsource htarget
    · exact nomatch heach
    · rw [htarget, Equiv.swap_apply_left, holds_eq hother]
      exact heach
    · rw [Equiv.swap_apply_of_ne_of_ne htarget hsource]
      exact heach
  · intro each found hfound
    rw [State.moveConstruct, State.put, Store.lookup_put, State.put, Store.lookup_put] at hfound
    split_ifs at hfound
    · obtain rfl := Option.some.inj hfound
      exact ⟨fun _ hnone ↦ (nomatch hnone), fun _ hnone ↦ (nomatch hnone),
        fun _ hnone ↦ (nomatch hnone), fun _ hnone ↦ (nomatch hnone)⟩
    · obtain rfl := Option.some.inj hfound
      exact hvalid
    · exact h.valid each found hfound

theorem Valid.native_ne_session {next : ℕ} {calls : List Call} {object : Object} {core : ℕ}
    (h : Valid next calls object) : object.native ≠ some (.session core) := by
  intro hnative
  have hfits := h.fits _ hnative
  unfold Fits at hfits
  split at hfits <;> simp at hfits

/-- The parent of a file or directory is an SFTP session. -/
theorem Handle.parent_of_isEntry {handle parent : Handle} (hentry : handle.isEntry = true)
    (hparent : handle.parent = some parent) : ∃ core sftp, parent = .sftp core sftp := by
  cases handle with
  | entry core sftp id => exact ⟨core, sftp, (Option.some.inj hparent).symm⟩
  | session _ => exact nomatch hentry
  | channel _ _ => exact nomatch hentry
  | sftp _ _ => exact nomatch hentry

/-- The last owner of a core frees it; nobody needs it then. -/
theorem Sound.letGo (h : Sound guarded state) {core : Option ℕ}
    (hbound : ∀ id, core = some id → id < state.next) : Sound guarded (state.letGo core) := by
  cases core with
  | none => exact h
  | some core =>
    simp only [State.letGo]
    split_ifs with hshared
    · exact h
    have hfreed : ∀ handle, Freed handle [⟨.sshDisconnect, .session core⟩,
        ⟨.sshFree, .session core⟩] → handle = .session core := by
      rintro handle ⟨call, hmem, hfrees, rfl⟩
      rcases List.mem_pair.mp hmem with rfl | rfl <;> rfl
    rw [Store.shares_iff] at hshared
    refine h.emit ?_ ?_ ?_ ?_ ?_
    · intro handle hhandle
      rw [hfreed handle hhandle]
      exact hbound core rfl
    · intro name object id hobject hcore hhandle
      obtain rfl := Handle.session.inj (hfreed _ hhandle)
      exact hshared ⟨name, object, hobject, hcore⟩
    · intro name handle hheld hhandle
      obtain rfl := hfreed handle hhandle
      obtain ⟨object, hobject, hnative⟩ := Option.bind_eq_some_iff.mp hheld
      exact (h.valid name object hobject).native_ne_session hnative
    · intro _ name handle parent hheld hentry hparent hhandle
      obtain ⟨session, sftp, rfl⟩ := Handle.parent_of_isEntry hentry hparent
      exact nomatch hfreed _ hhandle
    · intro call hmem _ parent hparent
      rcases List.mem_pair.mp hmem with rfl | rfl <;> exact nomatch hparent

/-- A file or directory made from the handle is still open. -/
def State.EntryOpen (state : State) (handle : Handle) : Prop :=
  ∃ name child, state.holds name = some child ∧ child.isEntry = true ∧ child.parent = some handle

theorem mem_release {object : Object} {closed : Bool} {call : Call}
    (h : call ∈ object.release closed) : object.native = some call.handle := by
  unfold Object.release at h
  split at h
  · exact absurd h List.not_mem_nil
  · next handle hnative =>
    rw [hnative]
    split at h
    · exact absurd h List.not_mem_nil
    · cases closed with
      | false =>
        simp at h
        rcases h with ⟨-, rfl | rfl⟩ | rfl <;> rfl
      | true =>
        simp at h
        rcases h with ⟨-, rfl⟩ | rfl <;> rfl
    · rw [List.mem_singleton.mp h]
    · rw [List.mem_singleton.mp h]
    · rw [List.mem_singleton.mp h]

theorem Handle.parent_ne_self (handle : Handle) : handle.parent ≠ some handle := by
  cases handle <;> simp [Handle.parent]

/-- The release of what an object holds, which leaves it without a handle. -/
theorem Sound.release (h : Sound guarded state) {name : ℕ} {object : Object}
    (hobject : state.store.lookup name = some object)
    (hclosed : guarded → ∀ handle, object.native = some handle → ¬ state.EntryOpen handle)
    (closed : Bool) :
    Sound guarded ((state.emit (object.release closed)).put name
      (some { object with native := none })) := by
  have hvalid := h.valid name object hobject
  have hvacant : Sound guarded (state.put name (some { object with native := none })) := by
    refine h.put_vacant rfl fun vacated hvacated ↦ ?_
    obtain rfl := Option.some.inj hvacated
    exact hvalid.vacate
  have hfreed : ∀ handle, Freed handle (object.release closed) → object.native = some handle := by
    rintro handle ⟨call, hmem, -, rfl⟩
    exact mem_release hmem
  have hkept : ∀ other handle, (state.put name (some { object with native := none })).holds other =
      some handle → other ≠ name ∧ state.holds other = some handle := by
    intro other handle hother
    rw [holds_put] at hother
    split_ifs at hother with hsame
    · exact nomatch hother
    · exact ⟨hsame, hother⟩
  change Sound guarded ((state.put name (some { object with native := none })).emit
    (object.release closed))
  refine hvacant.emit ?_ ?_ ?_ ?_ ?_
  · intro handle hhandle
    exact (hvalid.bound handle (hfreed handle hhandle)).1
  · intro other found core _ _ hhandle
    exact hvalid.native_ne_session (hfreed _ hhandle)
  · intro other handle hother hhandle
    obtain ⟨hne, hheld⟩ := hkept other handle hother
    exact hne (h.unique other name handle hheld
      ((holds_eq hobject).trans (hfreed handle hhandle)))
  · intro hguarded other handle parent hother hentry hparent hhandle
    obtain ⟨-, hheld⟩ := hkept other handle hother
    exact hclosed hguarded parent (hfreed parent hhandle) ⟨other, handle, hheld, hentry, hparent⟩
  · intro call hmem hanswers parent hparent hparentFreed
    rcases (freed_append _ _ _).mp hparentFreed with hold | hnew
    · exact h.parent_alive hobject (mem_release hmem) hanswers hparent hold
    · have hself : call.handle = parent :=
        Option.some.inj ((mem_release hmem).symm.trans (hfreed parent hnew))
      exact parent.parent_ne_self (hself ▸ hparent)

/-! ### The operations -/

theorem Sound.newSession (h : Sound guarded state) (name : ℕ) (allocated : Bool) :
    Sound guarded (state.newSession name allocated) := by
  have hempty : ∀ (next : ℕ) (calls : List Call) (core : Option ℕ),
      (∀ id, core = some id → id < next ∧ ¬ Freed (.session id) calls) →
        ∀ object, some { kind := .session, core : Object } = some object →
          Valid next calls object := by
    intro next calls core hcore object hobject
    obtain rfl := Option.some.inj hobject
    exact ⟨hcore, fun _ hnone ↦ (nomatch hnone), fun _ hnone ↦ (nomatch hnone),
      fun _ hnone ↦ (nomatch hnone)⟩
  unfold State.newSession
  split_ifs
  · refine h.bump.put_vacant rfl (hempty _ _ (some state.next) fun id hid ↦ ?_)
    obtain rfl := Option.some.inj hid
    refine ⟨Nat.lt_succ_self _, fun hfreed ↦ ?_⟩
    exact absurd (h.fresh _ hfreed) (Nat.lt_irrefl _)
  · exact h.put_vacant rfl (hempty _ _ none fun id hid ↦ nomatch hid)

/-- A handle with the next number is new. -/
theorem Sound.unheld (h : Sound guarded state) {handle : Handle} (hid : handle.id = state.next)
    (name : ℕ) : state.holds name ≠ some handle := by
  intro hheld
  obtain ⟨object, hobject, hnative⟩ := Option.bind_eq_some_iff.mp hheld
  have hlt := ((h.valid name object hobject).bound handle hnative).1
  omega

theorem Sound.unfreed (h : Sound guarded state) {handle : Handle} (hid : handle.id = state.next) :
    ¬ Freed handle state.calls := by
  intro hfreed
  have hlt := h.fresh handle hfreed
  omega

/-- The first calls with a new child of a session: one with the session, one with the
child. -/
theorem Sound.adoptChild (h : Sound guarded state) {core : ℕ} {handle : Handle}
    {first second : NativeCall} (hcore : ¬ Freed (.session core) state.calls)
    (hparent : handle.parent = some (.session core)) (hfirst : first.freesParent = false)
    (hsecond : second.freesParent = false) :
    Sound guarded ({ state with next := state.next + 1 }.emit
      [⟨first, .session core⟩, ⟨second, handle⟩]) := by
  refine h.bump.emit_keeping ?_ ?_
  · intro call hmem
    rcases List.mem_pair.mp hmem with rfl | rfl
    · exact hfirst
    · exact hsecond
  · intro call hmem _ parent heq
    rcases List.mem_pair.mp hmem with rfl | rfl
    · exact nomatch heq
    · obtain rfl := Option.some.inj (hparent.symm.trans heq)
      exact hcore

/-- A call with the session alone. -/
theorem Sound.useSession (h : Sound guarded state) (core : ℕ) :
    Sound guarded (state.emit [⟨.ssh, .session core⟩]) := by
  refine h.emit_keeping ?_ ?_
  · intro call hmem
    rw [List.mem_singleton.mp hmem]
    rfl
  · intro call hmem _ parent heq
    rw [List.mem_singleton.mp hmem] at heq
    exact nomatch heq

theorem freed_cons_of_keeps {handle : Handle} {call : Call} {calls : List Call}
    (h : call.name.freesParent = false) : Freed handle (call :: calls) ↔ Freed handle calls := by
  simp [Freed, h]

/-- The object around a new child of a session. -/
theorem Sound.put_child (h : Sound guarded state) {core : ℕ} {handle : Handle} {object : Object}
    {first second : NativeCall} (hcore : core < state.next ∧ ¬ Freed (.session core) state.calls)
    (hparent : handle.parent = some (.session core)) (hfirst : first.freesParent = false)
    (hsecond : second.freesParent = false) (hid : handle.id = state.next)
    (hentry : handle.isEntry = false) (hnative : object.native = some handle)
    (hobject : object.core = some core) (hfits : Fits object handle) (name : ℕ) :
    Sound guarded (({ state with next := state.next + 1 }.emit
      [⟨first, .session core⟩, ⟨second, handle⟩]).put name (some object)) := by
  have hcalls : ∀ each, Freed each (state.calls ++ [⟨first, .session core⟩, ⟨second, handle⟩]) ↔
      Freed each state.calls := by
    intro each
    rw [freed_append, freed_cons_of_keeps hfirst, freed_cons_of_keeps hsecond]
    simp [Freed]
  refine (h.adoptChild hcore.2 hparent hfirst hsecond).put_new ?_ hnative (h.unheld hid) ?_
  · refine ⟨?_, ?_, ?_, ?_⟩
    · intro id heq
      obtain rfl := Option.some.inj (hobject.symm.trans heq)
      exact ⟨Nat.lt_succ_of_lt hcore.1, (hcalls _).not.mpr hcore.2⟩
    · intro each heq
      obtain rfl := Option.some.inj (hnative.symm.trans heq)
      exact hfits
    · intro each heq
      obtain rfl := Option.some.inj (hnative.symm.trans heq)
      refine ⟨?_, fun parent hother ↦ ?_⟩
      · rw [hid]
        exact Nat.lt_succ_self _
      · obtain rfl := Option.some.inj (hparent.symm.trans hother)
        exact Nat.lt_succ_of_lt hcore.1
    · intro each heq
      obtain rfl := Option.some.inj (hnative.symm.trans heq)
      exact (hcalls _).not.mpr (h.unfreed hid)
  · intro _ htrue
    exact nomatch hentry.symm.trans htrue

/-- A new child of a session that is freed at once. -/
theorem Sound.free_child (h : Sound guarded state) {core : ℕ} {handle : Handle}
    {first second last : NativeCall} (hcore : ¬ Freed (.session core) state.calls)
    (hparent : handle.parent = some (.session core)) (hfirst : first.freesParent = false)
    (hsecond : second.freesParent = false) (hid : handle.id = state.next) :
    Sound guarded (({ state with next := state.next + 1 }.emit
      [⟨first, .session core⟩, ⟨second, handle⟩]).emit [⟨last, handle⟩]) := by
  have hfreed : ∀ each, Freed each [⟨last, handle⟩] → each = handle := by
    rintro each ⟨call, hmem, -, rfl⟩
    rw [List.mem_singleton.mp hmem]
  refine (h.adoptChild hcore hparent hfirst hsecond).emit ?_ ?_ ?_ ?_ ?_
  · intro each heach
    rw [hfreed each heach, hid]
    exact Nat.lt_succ_self _
  · intro name object id _ _ heach
    rw [← hfreed _ heach] at hparent
    exact nomatch hparent
  · intro name each hheld heach
    rw [hfreed each heach] at hheld
    exact h.unheld hid name hheld
  · intro _ name each parent hheld _ heq heach
    obtain ⟨object, hobject, hnative⟩ := Option.bind_eq_some_iff.mp hheld
    have hlt := ((h.valid name object hobject).bound each hnative).2 parent heq
    rw [hfreed parent heach] at hlt
    omega
  · intro call hmem _ parent heq hparentFreed
    rw [List.mem_singleton.mp hmem] at heq
    obtain rfl := Option.some.inj (hparent.symm.trans heq)
    change Freed _ ((state.calls ++ _) ++ _) at hparentFreed
    rw [freed_append, freed_append, freed_cons_of_keeps hfirst, freed_cons_of_keeps hsecond]
      at hparentFreed
    rcases hparentFreed with (hold | hnone) | hnew
    · exact hcore hold
    · simp [Freed] at hnone
    · rw [← hfreed _ hnew] at hparent
      exact nomatch hparent

theorem Sound.openChannel (h : Sound guarded state) {core : ℕ}
    (hcore : core < state.next ∧ ¬ Freed (.session core) state.calls) (name : ℕ)
    (allocated opened : Bool) : Sound guarded (state.openChannel name core allocated opened) := by
  unfold State.openChannel
  split_ifs
  · refine h.put_child hcore rfl rfl rfl rfl rfl rfl rfl ?_ name
    exact ⟨core, state.next, rfl, rfl⟩
  · exact h.free_child hcore.2 rfl rfl rfl rfl
  · exact h.useSession core

theorem Sound.openSftp (h : Sound guarded state) {core : ℕ}
    (hcore : core < state.next ∧ ¬ Freed (.session core) state.calls) (name : ℕ)
    (allocated initialised : Bool) :
    Sound guarded (state.openSftp name core allocated initialised) := by
  unfold State.openSftp
  split_ifs
  · refine h.put_child hcore rfl rfl rfl rfl rfl rfl rfl ?_ name
    exact ⟨core, state.next, rfl, rfl⟩
  · exact h.free_child hcore.2 rfl rfl rfl rfl
  · exact h.useSession core

/-- A call with the handle an object holds. -/
theorem Sound.useHandle (h : Sound guarded state) {name : ℕ} {object : Object} {handle : Handle}
    {call : NativeCall} (hobject : state.store.lookup name = some object)
    (hnative : object.native = some handle) (hcall : call.freesParent = false) :
    Sound guarded (state.emit [⟨call, handle⟩]) := by
  refine h.emit_keeping ?_ ?_
  · intro made hmem
    rw [List.mem_singleton.mp hmem]
    exact hcall
  · intro made hmem hanswers parent hparent
    rw [List.mem_singleton.mp hmem] at hanswers hparent
    exact h.parent_alive hobject hnative hanswers hparent

theorem Sound.openEntry (h : Sound guarded state) {other : ℕ} {sftp : Object}
    (hsftp : state.store.lookup other = some sftp) {kind : Kind}
    (hkind : kind = .file ∨ kind = .directory) (name : ℕ) (opened : Bool) :
    Sound guarded (state.openEntry kind name sftp opened) := by
  unfold State.openEntry
  split
  · next session id hnative =>
    have huse : Sound guarded (state.emit [⟨.sftp, .sftp session id⟩]) :=
      h.useHandle hsftp hnative rfl
    have hvalid := huse.valid other sftp hsftp
    dsimp only
    split_ifs
    · refine huse.bump.put_new ⟨?_, ?_, ?_, ?_⟩ rfl (huse.unheld rfl) ?_
      · intro core hcore
        exact ⟨Nat.lt_succ_of_lt (hvalid.core core hcore).1, (hvalid.core core hcore).2⟩
      · intro each heq
        obtain rfl := Option.some.inj heq
        rcases hkind with rfl | rfl <;> exact ⟨session, id, _, rfl, rfl⟩
      · intro each heq
        obtain rfl := Option.some.inj heq
        refine ⟨Nat.lt_succ_self _, fun parent hparent ↦ ?_⟩
        obtain rfl := Option.some.inj hparent
        exact Nat.lt_succ_of_lt (hvalid.bound _ hnative).1
      · intro each heq
        obtain rfl := Option.some.inj heq
        exact huse.unfreed rfl
      · intro _ _ parent hparent
        obtain rfl := Option.some.inj hparent
        exact hvalid.native _ hnative
    · exact huse
  · exact h

theorem Sound.use (h : Sound guarded state) {name : ℕ} {object : Object}
    (hobject : state.store.lookup name = some object) : Sound guarded (state.use object) := by
  unfold State.use
  split
  · exact h.useSession _
  · next hnative => exact h.useHandle hobject hnative rfl
  · next hnative => exact h.useHandle hobject hnative rfl
  · next hnative => exact h.useHandle hobject hnative rfl
  · next hnative => exact h.useHandle hobject hnative rfl
  · exact h

end Sound

/-! ### Runs -/

/-- The handle an operation releases, if it releases one: what a destroyed variable
holds, or one that is assigned to from another variable of its class. -/
def releasedHandle (state : State) : Op → Option Handle
  | .destroy name _ => state.holds name
  | .moveAssign name other _ =>
    match state.store.lookup name, state.store.lookup other with
    | some target, some source =>
      if target.kind = source.kind ∧ name ≠ other then target.native else none
    | _, _ => none
  | _ => none

/-- The operation frees an SFTP session from which a file or directory is still open. -/
def FreesUnderEntry (state : State) (op : Op) : Prop :=
  ∃ handle, releasedHandle state op = some handle ∧ state.EntryOpen handle

section Runs

variable {guarded : Prop} {state : State}

theorem Sound.closeFile (h : Sound guarded state) {name : ℕ} {file : Object}
    (hobject : state.store.lookup name = some file) (hkind : file.kind = .file) :
    Sound guarded (state.closeFile name file) := by
  refine h.release hobject ?_ false
  rintro - handle hnative ⟨other, child, -, hentry, hparent⟩
  -- a file has no children
  have hfits := (h.valid name file hobject).fits handle hnative
  rw [Fits, hkind] at hfits
  obtain ⟨core, sftp, id, -, rfl⟩ := hfits
  obtain ⟨core, sftp, hsftp⟩ := Handle.parent_of_isEntry hentry hparent
  exact nomatch hsftp

theorem Sound.moveAssign (h : Sound guarded state) {name other : ℕ} {target source : Object}
    (htarget : state.store.lookup name = some target)
    (hsource : state.store.lookup other = some source)
    (hclosed : guarded → name ≠ other → ∀ handle, target.native = some handle →
      ¬ state.EntryOpen handle) (closed : Bool) :
    Sound guarded (state.moveAssign name other target source closed) := by
  unfold State.moveAssign
  split_ifs with hself
  · exact h
  · have hreleased := h.release htarget (fun hguarded ↦ hclosed hguarded hself) closed
    have hkept : ((state.emit (target.release closed)).put name
        (some { target with native := none })).store.lookup other = some source := by
      rw [State.put, Store.lookup_put, if_neg (Ne.symm hself)]
      exact hsource
    have hmoved : Sound guarded ((((state.emit (target.release closed)).put name
        (some { target with native := none })).put name (some source)).put other
          (some source.movedFrom)) := hreleased.moveConstruct hkept
    rw [State.put_put] at hmoved
    exact hmoved.letGo fun id hid ↦ ((h.valid name target htarget).core id hid).1

theorem Sound.destroy (h : Sound guarded state) {name : ℕ} {object : Object}
    (hobject : state.store.lookup name = some object)
    (hclosed : guarded → ∀ handle, object.native = some handle → ¬ state.EntryOpen handle)
    (closed : Bool) : Sound guarded (state.destroy name object closed) := by
  have hreleased := h.release hobject hclosed closed
  have hgone : Sound guarded ((state.emit (object.release closed)).put name none) := by
    rw [← State.put_put _ name (some { object with native := none })]
    exact hreleased.put_vacant rfl fun _ hnone ↦ nomatch hnone
  exact hgone.letGo fun id hid ↦ ((h.valid name object hobject).core id hid).1

/-- Every operation keeps the invariant; in a guarded run it must not free an SFTP
session under an open file or directory. -/
theorem sound_step (op : Op) :
    Triple (fun state ↦ Sound guarded state ∧ (guarded → ¬ FreesUnderEntry state op)) (step op)
      fun _ ↦ Sound guarded := by
  intro state ⟨h, hguard⟩
  change Sound guarded (op.apply state)
  cases op with
  | newSession name allocated =>
    simp only [Op.apply]
    split
    · exact h.newSession name allocated
    · exact h
  | openChannel name session allocated opened =>
    simp only [Op.apply]
    split
    · next hsession =>
      exact h.openChannel ((h.valid session _ hsession).core _ rfl) name allocated opened
    · exact h
  | openSftp name session allocated initialised =>
    simp only [Op.apply]
    split
    · next hsession =>
      exact h.openSftp ((h.valid session _ hsession).core _ rfl) name allocated initialised
    · exact h
  | «open» name sftp opened =>
    simp only [Op.apply]
    split
    · next hsftp =>
      split_ifs
      · exact h.openEntry hsftp (.inl rfl) name opened
      · exact h
    · exact h
  | openDirectory name sftp opened =>
    simp only [Op.apply]
    split
    · next hsftp =>
      split_ifs
      · exact h.openEntry hsftp (.inr rfl) name opened
      · exact h
    · exact h
  | use name =>
    simp only [Op.apply]
    split
    · next hobject => exact h.use hobject
    · exact h
  | closeFile name =>
    simp only [Op.apply]
    split
    · next hobject =>
      split_ifs with hkind
      · exact h.closeFile hobject hkind
      · exact h
    · exact h
  | moveConstruct name other =>
    simp only [Op.apply]
    split
    · next hother => exact h.moveConstruct hother
    · exact h
  | moveAssign name other closed =>
    simp only [Op.apply]
    split
    · next target source htarget hsource =>
      split_ifs with hkind
      · refine h.moveAssign htarget hsource (fun hguarded hne handle hnative hopen ↦ ?_) closed
        refine hguard hguarded ⟨handle, ?_, hopen⟩
        simp only [releasedHandle, htarget, hsource]
        rw [if_pos ⟨hkind, hne⟩]
        exact hnative
      · exact h
    · exact h
  | destroy name closed =>
    simp only [Op.apply]
    split
    · next object hobject =>
      refine h.destroy hobject (fun hguarded handle hnative hopen ↦ ?_) closed
      exact hguard hguarded ⟨handle, (holds_eq hobject).trans hnative, hopen⟩
    · exact h

theorem sound_start : Sound guarded {} where
  fresh := fun _ ⟨_, hmem, _⟩ ↦ absurd hmem List.not_mem_nil
  valid := fun _ _ hnone ↦ nomatch hnone
  unique := fun _ _ _ hnone ↦ nomatch hnone
  entries := fun _ _ _ _ hnone ↦ nomatch hnone
  safe := fun _ _ _ hsplit ↦ absurd hsplit.symm (by simp)

end Runs

/-- Channels and SFTP sessions are never used or freed after their session, in any
program. In a program that never frees an SFTP session from which a file or directory
is still open, files and directories are not used or closed after their SFTP session
either, so that no handle is used after its parent was freed. -/
theorem parents_alive (program : List Op) :
    (∀ served, served <+: program →
      ParentsAlive (fun handle ↦ handle.isEntry = false) (stateAfter step served {}).calls) ∧
    (Allowed step (fun state op ↦ ¬ FreesUnderEntry state op) program {} →
      ∀ served, served <+: program →
        ParentsAlive (fun _ ↦ True) (stateAfter step served {}).calls) := by
  constructor
  · intro served _
    have hsound : Sound False (stateAfter step served {}) :=
      invariant_of_keeps (fun op state h ↦ sound_step op state ⟨h, fun hfalse ↦ hfalse.elim⟩)
        served sound_start
    intro before call after hsplit hentry
    exact hsound.safe before call after hsplit (.inl hentry)
  · intro hallowed served hserved
    have hsound : Sound True (stateAfter step served {}) := by
      refine invariant_of_allowed (fun op state h ↦ ?_) hallowed sound_start hserved
      exact sound_step op state ⟨h.1, fun _ ↦ h.2⟩
    intro before call after hsplit _
    exact hsound.safe before call after hsplit (.inr trivial)

/-- A file that is destroyed after the `Sftp` it was opened from. -/
def fileOutlivesSftp : List Op :=
  [.newSession 0 true, .openSftp 1 0 true true, .open 2 1 true, .destroy 1 false,
    .destroy 2 false]

/-- `sftp_close` comes after `sftp_free`. -/
theorem fileOutlivesSftp_use_after_free :
    ¬ ParentsAlive (fun _ ↦ True) (stateAfter step fileOutlivesSftp {}).calls := by
  intro h
  refine h [⟨.ssh, .session 0⟩, ⟨.sftpInit, .sftp 0 1⟩, ⟨.sftp, .sftp 0 1⟩, ⟨.sftpFree, .sftp 0 1⟩]
    ⟨.sftpClose, .entry 0 1 2⟩ [] (by decide) trivial (.sftp 0 1) rfl ?_
  exact ⟨⟨.sftpFree, .sftp 0 1⟩, by decide, rfl, rfl⟩

end LibSshpp.Lifetime.Parents
