import LibSshpp.Program.StateTriple
import Mathlib.Data.Int.Notation
import Mathlib.Data.List.Chain
import Mathlib.Tactic.SplitIfs

/-!
`Library`, the guard around `ssh_init` and `ssh_finalize`: a global reference
count and one flag an object. The constructor initialises libssh when the count
leaves zero; the copy constructor counts without looking at what the count was.
-/

set_option autoImplicit false
set_option relaxedAutoImplicit false

namespace LibSshpp.Lifetime

open Program

inductive LogLevel
  | none | warning | info | debug | trace
  deriving DecidableEq, Repr

/-- `level_to_native`: the values of `SSH_LOG_NONE` to `SSH_LOG_TRACE`. -/
def levelToNative : LogLevel → ℤ
  | .none => 0
  | .warning => 1
  | .info => 2
  | .debug => 3
  | .trace => 4

/-- The calls into libssh that the special members of `Library` make. -/
inductive LibraryCall
  | sshInit
  | sshFinalize
  | sshThreadsSetCallbacks
  | sshSetLogLevel (level : ℤ)
  | sshSetLogCallback
  deriving DecidableEq, Repr

namespace Library

/-- `Library::Config`; a log callback is known by a number. -/
structure Config where
  installThreadingCallbacks : Bool := true
  logLevel : LogLevel := .none
  logCallback : Option ℕ := .none
  deriving DecidableEq, Repr

/-- The globals of `library.ipp`, the `owns_` flag of every object ever made, in
the order of their construction and `none` once destroyed, and the calls made. -/
structure State where
  refcount : ℤ := 0
  logLevel : LogLevel := .none
  logCallback : Option ℕ := .none
  objects : List (Option Bool) := []
  calls : List LibraryCall := []
  deriving DecidableEq, Repr

/-- The `owns_` flag of a living object. -/
def State.owns (state : State) (object : ℕ) : Option Bool := (state.objects[object]?).join

def call (made : LibraryCall) : StateM State Unit :=
  modify fun state ↦ { state with calls := state.calls ++ [made] }

/-- A new object, which takes the next number. -/
def newObject (owns : Bool) : StateM State Unit :=
  modify fun state ↦ { state with objects := state.objects ++ [some owns] }

def setOwns (object : ℕ) (owns : Bool) : StateM State Unit :=
  modify fun state ↦ { state with objects := state.objects.set object (some owns) }

/-- The storage of an object goes away. -/
def endLifetime (object : ℕ) : StateM State Unit :=
  modify fun state ↦ { state with objects := state.objects.set object none }

def addReference : StateM State Unit :=
  modify fun state ↦ { state with refcount := state.refcount + 1 }

/-- `--refcount`, and `ssh_finalize` at zero. -/
def dropReference : StateM State Unit := do
  modify fun state ↦ { state with refcount := state.refcount - 1 }
  if (← get).refcount = 0 then call .sshFinalize

/-- `Library::Library(const Config&)`. -/
def construct (cfg : Config) : StateM State Unit := do
  if (← get).refcount = 0 then
    call .sshInit
    if cfg.installThreadingCallbacks then call .sshThreadsSetCallbacks
  addReference
  newObject true
  if cfg.logLevel ≠ .none then
    modify fun state ↦ { state with logLevel := cfg.logLevel }
    call (.sshSetLogLevel (levelToNative cfg.logLevel))
  if cfg.logCallback ≠ .none then
    modify fun state ↦ { state with logCallback := cfg.logCallback }
    call .sshSetLogCallback

/-- `Library::~Library`, with the flag of the object. -/
def destroy (object : ℕ) (owns : Bool) : StateM State Unit := do
  if owns then dropReference
  endLifetime object

/-- `Library::Library(const Library&)`: whatever the source holds, the copy owns. -/
def copyConstruct : StateM State Unit := do
  addReference
  newObject true

/-- `Library::operator=(const Library&)`: the temporary takes a reference as a copy
does, the flags are swapped, and the temporary is destroyed with the old one. -/
def copyAssign (object other : ℕ) (owns : Bool) : StateM State Unit := do
  if object = other then pure ()
  else
    addReference
    setOwns object true
    if owns then dropReference

/-- `Library::Library(Library&&)`. -/
def moveConstruct (other : ℕ) (otherOwns : Bool) : StateM State Unit := do
  newObject otherOwns
  setOwns other false

/-- `Library::operator=(Library&&)`. -/
def moveAssign (object other : ℕ) (owns otherOwns : Bool) : StateM State Unit := do
  if object = other then pure ()
  else
    if owns then dropReference
    setOwns object otherOwns
    setOwns other false

/-- `Library::initialized`. -/
def initialized (state : State) : Bool := 0 < state.refcount

/-- One operation of a program over `Library` objects. -/
inductive Op
  | construct (cfg : Config)
  | copyConstruct (other : ℕ)
  | moveConstruct (other : ℕ)
  | copyAssign (object other : ℕ)
  | moveAssign (object other : ℕ)
  | destroy (object : ℕ)
  deriving DecidableEq, Repr

/-- An operation on objects that are not alive is no C++ program; it does nothing here. -/
def step (op : Op) : StateM State Unit := fun state ↦
  match op with
  | .construct cfg => construct cfg state
  | .copyConstruct other =>
    match state.owns other with
    | some _ => copyConstruct state
    | none => ((), state)
  | .moveConstruct other =>
    match state.owns other with
    | some otherOwns => moveConstruct other otherOwns state
    | none => ((), state)
  | .copyAssign object other =>
    match state.owns object, state.owns other with
    | some owns, some _ => copyAssign object other owns state
    | _, _ => ((), state)
  | .moveAssign object other =>
    match state.owns object, state.owns other with
    | some owns, some otherOwns => moveAssign object other owns otherOwns state
    | _, _ => ((), state)
  | .destroy object =>
    match state.owns object with
    | some owns => destroy object owns state
    | none => ((), state)

/-! ### What a program should see -/

/-- The objects that own a reference. -/
def owners (state : State) : ℕ := state.objects.count (some true)

def isLifecycle : LibraryCall → Bool
  | .sshInit | .sshFinalize => true
  | _ => false

/-- The initialisations and finalisations among the calls. -/
def lifecycle (calls : List LibraryCall) : List LibraryCall := calls.filter isLifecycle

/-- libssh was initialised last, not finalised. -/
def LibsshInitialized (calls : List LibraryCall) : Prop :=
  (lifecycle calls).getLast? = some .sshInit

/-- `ssh_init` and `ssh_finalize` come in turn, `ssh_init` first. -/
structure StrictAlternation (calls : List LibraryCall) : Prop where
  chain : (lifecycle calls).IsChain (· ≠ ·)
  starts : (lifecycle calls).head? ≠ some .sshFinalize

/-- The count is that of the owning objects, libssh is initialised and finalised in
turn, and it is initialised exactly when the count is positive, as `initialized`
says. -/
structure Truthful (state : State) : Prop where
  refcount : state.refcount = owners state
  alternation : StrictAlternation state.calls
  initialised : LibsshInitialized state.calls ↔ 0 < state.refcount
  told : initialized state = true ↔ LibsshInitialized state.calls

/-- The operation copies a living object while the count is zero. -/
def CopiesAtZero (state : State) : Op → Prop
  | .copyConstruct other => (state.owns other).isSome ∧ state.refcount = 0
  | .copyAssign object other =>
    object ≠ other ∧ (state.owns object).isSome ∧ (state.owns other).isSome ∧ state.refcount = 0
  | _ => False

instance (state : State) : DecidablePred (CopiesAtZero state)
  | .construct _ => inferInstanceAs (Decidable False)
  | .copyConstruct _ => inferInstanceAs (Decidable (_ ∧ _))
  | .moveConstruct _ => inferInstanceAs (Decidable False)
  | .copyAssign _ _ => inferInstanceAs (Decidable (_ ∧ _))
  | .moveAssign _ _ => inferInstanceAs (Decidable False)
  | .destroy _ => inferInstanceAs (Decidable False)

/-! ### The calls -/

@[simp] theorem lifecycle_append (calls more : List LibraryCall) :
    lifecycle (calls ++ more) = lifecycle calls ++ lifecycle more :=
  List.filter_append _ _

/-- Calls of other kinds do not matter. -/
theorem StrictAlternation.append_other {calls more : List LibraryCall}
    (h : StrictAlternation calls) (hmore : lifecycle more = []) :
    StrictAlternation (calls ++ more) := by
  constructor
  · rw [lifecycle_append, hmore, List.append_nil]
    exact h.chain
  · rw [lifecycle_append, hmore, List.append_nil]
    exact h.starts

theorem StrictAlternation.sshInit {calls : List LibraryCall} (h : StrictAlternation calls)
    (hnot : ¬ LibsshInitialized calls) : StrictAlternation (calls ++ [.sshInit]) := by
  have hlast : lifecycle [.sshInit] = [.sshInit] := rfl
  constructor
  · rw [lifecycle_append, hlast]
    apply h.chain.append (List.isChain_singleton _)
    intro last hmem next hnext heq
    obtain rfl := Option.mem_some_iff.mp hnext
    rw [heq] at hmem
    exact hnot hmem
  · rw [lifecycle_append, hlast, List.head?_append]
    intro heq
    cases hhead : (lifecycle calls).head? with
    | none => simp [hhead] at heq
    | some first =>
      rw [hhead] at heq
      exact h.starts (hhead.trans heq)

theorem StrictAlternation.sshFinalize {calls : List LibraryCall} (h : StrictAlternation calls)
    (hinitialised : LibsshInitialized calls) : StrictAlternation (calls ++ [.sshFinalize]) := by
  have hlast : lifecycle [.sshFinalize] = [.sshFinalize] := rfl
  constructor
  · rw [lifecycle_append, hlast]
    apply h.chain.append (List.isChain_singleton _)
    intro last hmem next hnext heq
    obtain rfl := Option.mem_some_iff.mp hnext
    obtain rfl := Option.some.inj (hinitialised.symm.trans hmem)
    exact nomatch heq
  · rw [lifecycle_append, hlast, List.head?_append]
    cases hhead : (lifecycle calls).head? with
    | none =>
      rw [List.head?_eq_none_iff] at hhead
      rw [LibsshInitialized, hhead] at hinitialised
      exact nomatch hinitialised
    | some first =>
      intro heq
      exact h.starts (hhead.trans heq)

theorem libsshInitialized_append_other {calls more : List LibraryCall}
    (hmore : lifecycle more = []) :
    LibsshInitialized (calls ++ more) ↔ LibsshInitialized calls := by
  rw [LibsshInitialized, lifecycle_append, hmore, List.append_nil]
  exact Iff.rfl

theorem libsshInitialized_sshInit (calls : List LibraryCall) :
    LibsshInitialized (calls ++ [.sshInit]) := by
  simp [LibsshInitialized, lifecycle, isLifecycle]

theorem not_libsshInitialized_sshFinalize (calls : List LibraryCall) :
    ¬ LibsshInitialized (calls ++ [.sshFinalize]) := by
  simp [LibsshInitialized, lifecycle, isLifecycle]

/-! ### Counting -/

/-- The invariant inside an operation: `pending` references are counted that no
object owns yet, or, if negative, owned by an object and no longer counted. -/
structure Balanced (pending : ℤ) (state : State) : Prop where
  refcount : state.refcount = owners state + pending
  alternation : StrictAlternation state.calls
  initialised : LibsshInitialized state.calls ↔ 0 < state.refcount

theorem truthful_iff_balanced (state : State) : Truthful state ↔ Balanced 0 state := by
  constructor
  · intro h
    exact ⟨by rw [h.refcount, Int.add_zero], h.alternation, h.initialised⟩
  · intro h
    refine ⟨by rw [h.refcount, Int.add_zero], h.alternation, h.initialised, ?_⟩
    rw [h.initialised, initialized, decide_eq_true_eq]

/-- A change of the objects alone moves the balance by the owners it adds. -/
theorem Balanced.of_objects {pending pending' : ℤ} {state after : State}
    (h : Balanced pending state) (hrefcount : after.refcount = state.refcount)
    (hcalls : after.calls = state.calls)
    (howners : (owners after : ℤ) + pending' = owners state + pending) :
    Balanced pending' after where
  refcount := by rw [hrefcount, h.refcount, howners]
  alternation := hcalls ▸ h.alternation
  initialised := by rw [hcalls, hrefcount, h.initialised]

theorem Balanced.append_other {pending : ℤ} {state after : State} {more : List LibraryCall}
    (h : Balanced pending state) (hmore : lifecycle more = [])
    (hrefcount : after.refcount = state.refcount) (hobjects : after.objects = state.objects)
    (hcalls : after.calls = state.calls ++ more) : Balanced pending after where
  refcount := by rw [hrefcount, h.refcount, owners, owners, hobjects]
  alternation := hcalls ▸ h.alternation.append_other hmore
  initialised := by rw [hcalls, libsshInitialized_append_other hmore, hrefcount, h.initialised]

/-- One object's flag counts for one owner or for none. -/
def weight (flag : Option Bool) : ℕ := if flag = some true then 1 else 0

theorem owners_append (state : State) (flag : Option Bool) :
    owners { state with objects := state.objects ++ [flag] } = owners state + weight flag := by
  simp only [owners, List.count_append, weight, List.count_singleton, beq_iff_eq]

theorem owns_eq_some {state : State} {object : ℕ} {flag : Bool}
    (h : state.owns object = some flag) :
    ∃ hlt : object < state.objects.length, state.objects[object] = some flag := by
  obtain ⟨hlt, heq⟩ := List.getElem?_eq_some_iff.mp (Option.join_eq_some_iff.mp h)
  exact ⟨hlt, heq⟩

theorem owners_set {state : State} {object : ℕ} {old : Bool} (h : state.owns object = some old)
    (new : Option Bool) :
    owners { state with objects := state.objects.set object new } + weight (some old) =
      owners state + weight new := by
  obtain ⟨hlt, hold⟩ := owns_eq_some h
  have hone : weight (some old) ≤ owners state := by
    unfold weight owners
    split_ifs with htrue
    · exact List.one_le_count_iff.mpr (htrue ▸ hold ▸ List.getElem_mem hlt)
    · exact Nat.zero_le _
  unfold owners at *
  rw [List.count_set hlt, hold]
  simp only [weight, beq_iff_eq] at *
  omega

/-! ### The operations -/

theorem balanced_addReference {pending : ℤ} {state : State} (h : Balanced pending state)
    (hpos : 0 < state.refcount) : Balanced (pending + 1) (addReference state).2 where
  refcount := by
    change state.refcount + 1 = owners state + (pending + 1)
    rw [h.refcount, Int.add_assoc]
  alternation := h.alternation
  initialised := by
    refine iff_of_true (h.initialised.mpr hpos) ?_
    change 0 < state.refcount + 1
    omega

theorem dropReference_eq (state : State) :
    dropReference state = ((), { state with
      refcount := state.refcount - 1
      calls := state.calls ++ if state.refcount - 1 = 0 then [.sshFinalize] else [] }) := by
  by_cases hzero : state.refcount - 1 = 0
  · simp [dropReference, call, modify, modifyGet, MonadStateOf.modifyGet, StateT.modifyGet, bind,
      StateT.bind, get, getThe, MonadStateOf.get, StateT.get, pure, hzero]
  · simp [dropReference, modify, modifyGet, MonadStateOf.modifyGet, StateT.modifyGet, bind,
      StateT.bind, get, getThe, MonadStateOf.get, StateT.get, pure, stateT_pure, hzero]

theorem balanced_dropReference {pending : ℤ} {state : State} (h : Balanced pending state)
    (hpos : 0 < state.refcount) : Balanced (pending - 1) (dropReference state).2 := by
  have hinitialised := h.initialised.mpr hpos
  rw [dropReference_eq]
  by_cases hzero : state.refcount - 1 = 0
  · rw [if_pos hzero]
    refine ⟨?_, h.alternation.sshFinalize hinitialised, ?_⟩
    · show state.refcount - 1 = owners state + (pending - 1)
      rw [h.refcount, Int.add_sub_assoc]
    · refine iff_of_false (not_libsshInitialized_sshFinalize _) ?_
      show ¬ 0 < state.refcount - 1
      omega
  · rw [if_neg hzero, List.append_nil]
    refine ⟨?_, h.alternation, iff_of_true hinitialised ?_⟩
    · show state.refcount - 1 = owners state + (pending - 1)
      rw [h.refcount, Int.add_sub_assoc]
    · show 0 < state.refcount - 1
      omega

theorem balanced_newObject {pending : ℤ} {state : State} (h : Balanced pending state)
    (owns : Bool) : Balanced (pending - weight (some owns)) (newObject owns state).2 := by
  refine h.of_objects rfl rfl ?_
  change (owners { state with objects := state.objects ++ [some owns] } : ℤ) + _ = _
  rw [owners_append]
  omega

theorem balanced_set {pending : ℤ} {state : State} {object : ℕ} {old : Bool}
    (h : Balanced pending state) (hold : state.owns object = some old) (new : Option Bool) :
    Balanced (pending + weight (some old) - weight new)
      { state with objects := state.objects.set object new } := by
  refine h.of_objects rfl rfl ?_
  have hset := owners_set hold new
  omega

/-- An owning object of a balanced state has its reference counted. -/
theorem refcount_pos_of_owns {pending : ℤ} {state : State} {object : ℕ} (hpending : 0 ≤ pending)
    (h : Balanced pending state) (howns : state.owns object = some true) : 0 < state.refcount := by
  have hset := owners_set howns none
  have hrefcount := h.refcount
  simp only [weight, if_true, reduceCtorEq, if_false] at hset
  omega

/-- What the constructor has done once its object exists: libssh was initialised if
the count was zero. -/
def constructed (cfg : Config) (state : State) : State :=
  { state with
    refcount := state.refcount + 1
    objects := state.objects ++ [some true]
    calls := state.calls ++ if state.refcount = 0 then
      .sshInit :: if cfg.installThreadingCallbacks then [.sshThreadsSetCallbacks] else [] else [] }

/-- What follows concerns logging. -/
theorem construct_eq (cfg : Config) (state : State) :
    ∃ more : List LibraryCall, lifecycle more = [] ∧
      (construct cfg state).2.refcount = (constructed cfg state).refcount ∧
      (construct cfg state).2.objects = (constructed cfg state).objects ∧
      (construct cfg state).2.calls = (constructed cfg state).calls ++ more := by
  refine ⟨(if cfg.logLevel ≠ .none then [.sshSetLogLevel (levelToNative cfg.logLevel)] else []) ++
    if cfg.logCallback ≠ .none then [.sshSetLogCallback] else [], ?_, ?_⟩
  · split_ifs <;> rfl
  · by_cases hzero : state.refcount = 0 <;> by_cases hthreads : cfg.installThreadingCallbacks <;>
      by_cases hlevel : cfg.logLevel = .none <;> by_cases hlog : cfg.logCallback = .none <;>
      simp [construct, constructed, call, addReference, newObject, modify, modifyGet,
        MonadStateOf.modifyGet, StateT.modifyGet, bind, StateT.bind, get, getThe, MonadStateOf.get,
        StateT.get, pure, stateT_pure, hzero, hthreads, hlevel, hlog]

theorem balanced_construct {state : State} (h : Balanced 0 state) (cfg : Config) :
    Balanced 0 (construct cfg state).2 := by
  obtain ⟨more, hmore, hrefcount, hobjects, hcalls⟩ := construct_eq cfg state
  suffices hconstructed : Balanced 0 (constructed cfg state) from
    hconstructed.append_other hmore hrefcount hobjects hcalls
  have howners : (owners (constructed cfg state) : ℤ) = owners state + 1 := by
    show (owners { state with objects := state.objects ++ [some true] } : ℤ) = owners state + 1
    rw [owners_append]
    rfl
  have hcount : (constructed cfg state).refcount = owners (constructed cfg state) + 0 := by
    rw [howners]
    show state.refcount + 1 = _
    rw [h.refcount]
    omega
  by_cases hzero : state.refcount = 0
  · have hnot : ¬ LibsshInitialized state.calls := by
      rw [h.initialised, hzero]
      exact Int.lt_irrefl 0
    have hthreads : lifecycle (if cfg.installThreadingCallbacks then [.sshThreadsSetCallbacks]
        else []) = [] := by
      split_ifs <;> rfl
    have hcalls : (constructed cfg state).calls = (state.calls ++ [.sshInit]) ++
        (if cfg.installThreadingCallbacks then [.sshThreadsSetCallbacks] else []) := by
      simp only [constructed, if_pos hzero, List.append_assoc, List.singleton_append]
    refine ⟨hcount, ?_, ?_⟩
    · rw [hcalls]
      exact (h.alternation.sshInit hnot).append_other hthreads
    · rw [hcalls, libsshInitialized_append_other hthreads]
      refine iff_of_true (libsshInitialized_sshInit _) ?_
      show 0 < state.refcount + 1
      omega
  · have hpos : 0 < state.refcount := by
      have hrefcount := h.refcount
      omega
    have hcalls : (constructed cfg state).calls = state.calls := by
      simp only [constructed, if_neg hzero, List.append_nil]
    refine ⟨hcount, hcalls ▸ h.alternation, ?_⟩
    rw [hcalls]
    refine iff_of_true (h.initialised.mpr hpos) ?_
    show 0 < state.refcount + 1
    omega

theorem balanced_destroy {state : State} {object : ℕ} {owns : Bool} (h : Balanced 0 state)
    (howns : state.owns object = some owns) : Balanced 0 (destroy object owns state).2 := by
  cases owns with
  | false => exact balanced_set h howns none
  | true =>
    have hdrop := balanced_dropReference h (refcount_pos_of_owns (Int.le_refl 0) h howns)
    have hkept : (dropReference state).2.owns object = some true := by
      rw [dropReference_eq]
      exact howns
    exact balanced_set hdrop hkept none

/-- A copy made while the count is positive. -/
theorem balanced_copyConstruct {state : State} (h : Balanced 0 state) (hpos : 0 < state.refcount) :
    Balanced 0 (copyConstruct state).2 :=
  balanced_newObject (balanced_addReference h hpos) true

theorem balanced_copyAssign {state : State} {object other : ℕ} {owns : Bool}
    (h : Balanced 0 state) (howns : state.owns object = some owns)
    (hpos : object ≠ other → 0 < state.refcount) :
    Balanced 0 (copyAssign object other owns state).2 := by
  unfold copyAssign
  split_ifs with hself howned
  · exact h
  · -- the temporary goes with the reference the object had
    subst howned
    have hset : Balanced 1 (setOwns object true (addReference state).2).2 :=
      balanced_set (balanced_addReference h (hpos hself)) howns (some true)
    have hcount : 0 < (setOwns object true (addReference state).2).2.refcount := by
      show 0 < state.refcount + 1
      have := hpos hself
      omega
    exact balanced_dropReference hset hcount
  · obtain rfl : owns = false := Bool.eq_false_iff.mpr howned
    exact balanced_set (balanced_addReference h (hpos hself)) howns (some true)

theorem owns_append {state : State} {object : ℕ} {flag : Bool} (h : state.owns object = some flag)
    (new : Option Bool) :
    { state with objects := state.objects ++ [new] }.owns object = some flag := by
  obtain ⟨hlt, -⟩ := owns_eq_some h
  rw [← h, State.owns, State.owns, List.getElem?_append_left hlt]

theorem owns_set_of_ne {state : State} {object other : ℕ} (hne : object ≠ other)
    (new : Option Bool) :
    { state with objects := state.objects.set object new }.owns other = state.owns other := by
  rw [State.owns, State.owns, List.getElem?_set_ne hne]

theorem balanced_moveConstruct {state : State} {other : ℕ} {otherOwns : Bool}
    (h : Balanced 0 state) (hother : state.owns other = some otherOwns) :
    Balanced 0 (moveConstruct other otherOwns state).2 := by
  have hset := balanced_set (balanced_newObject h otherOwns) (owns_append hother _) (some false)
  have hzero : (0 : ℤ) - weight (some otherOwns) + weight (some otherOwns) - weight (some false) =
      0 := by
    rw [Int.sub_add_cancel]
    rfl
  rw [hzero] at hset
  exact hset

theorem balanced_moveAssign {state : State} {object other : ℕ} {owns otherOwns : Bool}
    (h : Balanced 0 state) (howns : state.owns object = some owns)
    (hother : state.owns other = some otherOwns) :
    Balanced 0 (moveAssign object other owns otherOwns state).2 := by
  -- the flag moves from one object to the other, in any balanced state
  have hmoved : ∀ {pending : ℤ} {before : State}, Balanced pending before →
      before.owns object = some owns → before.owns other = some otherOwns → object ≠ other →
      Balanced (pending + weight (some owns))
        (setOwns other false (setOwns object otherOwns before).2).2 := by
    intro pending before hbefore hobject hsource hne
    have hfirst := balanced_set hbefore hobject (some otherOwns)
    have hkept := (owns_set_of_ne hne (some otherOwns)).trans hsource
    have hset := balanced_set hfirst hkept (some false)
    have hsame : pending + weight (some owns) - weight (some otherOwns) +
        weight (some otherOwns) - weight (some false) = pending + weight (some owns) := by
      rw [Int.sub_add_cancel]
      exact Int.sub_zero _
    rw [hsame] at hset
    exact hset
  unfold moveAssign
  split_ifs with hself howned
  · exact h
  · subst howned
    have hdrop := balanced_dropReference h (refcount_pos_of_owns (Int.le_refl 0) h howns)
    have hkept : ∀ each, (dropReference state).2.owns each = state.owns each := by
      intro each
      rw [dropReference_eq]
      rfl
    exact hmoved hdrop ((hkept object).trans howns) ((hkept other).trans hother) hself
  · obtain rfl : owns = false := Bool.eq_false_iff.mpr howned
    exact hmoved h howns hother hself

/-! ### Runs -/

/-- An operation that does not copy at a count of zero keeps the balance. -/
theorem balanced_step (op : Op) :
    Triple (fun state ↦ Balanced 0 state ∧ ¬ CopiesAtZero state op) (step op)
      fun _ ↦ Balanced 0 := by
  intro state ⟨h, hcopies⟩
  have hpos : state.refcount ≠ 0 → 0 < state.refcount := by
    have hrefcount := h.refcount
    omega
  cases op with
  | construct cfg => exact balanced_construct h cfg
  | copyConstruct other =>
    simp only [step]
    split
    · next hother =>
      exact balanced_copyConstruct h (hpos fun hzero ↦ hcopies ⟨by rw [hother]; rfl, hzero⟩)
    · exact h
  | moveConstruct other =>
    simp only [step]
    split
    · next hother => exact balanced_moveConstruct h hother
    · exact h
  | copyAssign object other =>
    simp only [step]
    split
    · next howns hother =>
      refine balanced_copyAssign h howns fun hne ↦ hpos fun hzero ↦ hcopies ?_
      exact ⟨hne, by rw [howns]; rfl, by rw [hother]; rfl, hzero⟩
    · exact h
  | moveAssign object other =>
    simp only [step]
    split
    · next howns hother => exact balanced_moveAssign h howns hother
    · exact h
  | destroy object =>
    simp only [step]
    split
    · next howns => exact balanced_destroy h howns
    · exact h

/-- A copy at a count of zero leaves a counted reference to a libssh that nobody
initialised. -/
theorem not_balanced_of_copiesAtZero {state : State} {op : Op} (h : Balanced 0 state)
    (hcopies : CopiesAtZero state op) : ¬ Balanced 0 (step op state).2 := by
  have hbroken : ∀ after : State, after.refcount = state.refcount + 1 →
      after.calls = state.calls → state.refcount = 0 → ¬ Balanced 0 after := by
    intro after hrefcount hcalls hzero hafter
    have hinitialised : LibsshInitialized state.calls := by
      rw [← hcalls, hafter.initialised]
      omega
    rw [h.initialised] at hinitialised
    omega
  cases op with
  | construct _ => exact hcopies.elim
  | moveConstruct _ => exact hcopies.elim
  | moveAssign _ _ => exact hcopies.elim
  | destroy _ => exact hcopies.elim
  | copyConstruct other =>
    obtain ⟨hother, hzero⟩ := hcopies
    obtain ⟨flag, hflag⟩ := Option.isSome_iff_exists.mp hother
    have hstep : step (.copyConstruct other) state = copyConstruct state := by
      simp only [step, hflag]
    rw [hstep]
    exact hbroken _ rfl rfl hzero
  | copyAssign object other =>
    obtain ⟨hne, hobject, hother, hzero⟩ := hcopies
    obtain ⟨flag, hflag⟩ := Option.isSome_iff_exists.mp hother
    obtain ⟨owns, howns⟩ := Option.isSome_iff_exists.mp hobject
    have hnone : owns = false := by
      cases owns with
      | false => rfl
      | true => exact absurd hzero (Int.ne_of_gt (refcount_pos_of_owns (Int.le_refl 0) h howns))
    have hstep : step (.copyAssign object other) state = copyAssign object other false state := by
      simp only [step, hflag, howns, hnone]
    rw [hstep, copyAssign, if_neg hne]
    exact hbroken _ rfl rfl hzero

theorem balanced_start : Balanced 0 {} :=
  ⟨rfl, ⟨List.isChain_nil, fun h ↦ nomatch h⟩, iff_of_false (fun h ↦ nomatch h) (Int.lt_irrefl 0)⟩

/-- After every operation of a program over `Library` objects the count, the calls
and `initialized` agree, if and only if the program never copies an object, by
construction or by assignment from another one, while the count is zero. -/
theorem library_truthful_iff (program : List Op) :
    (∀ served, served <+: program → Truthful (stateAfter step served {})) ↔
      Allowed step (fun state op ↦ ¬ CopiesAtZero state op) program {} := by
  simp only [truthful_iff_balanced]
  constructor
  · intro h
    refine allowed_of_invariant (fun op state hbefore hafter ↦ ?_) h
    exact fun hcopies ↦ not_balanced_of_copiesAtZero hbefore hcopies hafter
  · intro h served hserved
    exact invariant_of_allowed balanced_step h balanced_start hserved

/-- The only object gives its reference away, the new owner goes, and the first
object is copied: `initialized` reports a libssh that has been finalised. -/
theorem copy_of_moved_from_uninitialised :
    ¬ Truthful (stateAfter step
      [.construct {}, .moveConstruct 0, .destroy 1, .copyConstruct 0] {}) := by
  intro h
  have htold := h.told.mp (by decide)
  rw [LibsshInitialized] at htold
  exact absurd htold (by decide)

end Library

end LibSshpp.Lifetime
