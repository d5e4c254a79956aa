import LibSshpp.Foundation.Bytes
import Mathlib.Data.List.AList
import Mathlib.Data.List.Infix

/-!
A Unix directory tree: the objects by their physical location, the list of
names that leads from the root directory to them without any symbolic link. A
tree carries the proof that every object lies in a directory, so that adding,
removing and moving objects are partial operations that keep it.
-/

set_option autoImplicit false
set_option relaxedAutoImplicit false

namespace LibSshpp.Posix

abbrev Name := Bytes

/-- A physical location: the names from the root directory down to an object. -/
abbrev Loc := List Name

def dot : Name := [0x2e]
def dotdot : Name := [0x2e, 0x2e]

/-- A name that can be a directory entry of its own. -/
def ProperName (name : Name) : Prop :=
  name ≠ [] ∧ name ≠ dot ∧ name ≠ dotdot ∧ 0x2f ∉ name

instance (name : Name) : Decidable (ProperName name) := inferInstanceAs (Decidable (_ ∧ _))

/-- Ownership, permission bits and times of an object. -/
structure NodeAttr where
  perm : UInt32 := 0o755
  uid : UInt32 := 0
  gid : UInt32 := 0
  atime : Int64 := 0
  mtime : Int64 := 0
  deriving DecidableEq, Repr

/-- The text stored in a symbolic link: a non-empty C string below `PATH_MAX`. -/
abbrev LinkTarget := { text : Bytes // text ≠ [] ∧ 0 ∉ text ∧ text.length < 4096 }

/-- An object of the tree. Directories and files are known by the number of their
inode. -/
inductive Node
  | dir (ino : ℕ)
  | file (ino : ℕ)
  | symlink (target : LinkTarget) (attr : NodeAttr)
  deriving DecidableEq

def Node.isDir : Node → Bool
  | .dir _ => true
  | _ => false

/-- A directory tree. -/
structure FileTree where
  nodes : AList fun _ : Loc ↦ Node
  root : (nodes.lookup []).any Node.isDir = true
  parent : ∀ loc ∈ nodes.keys, loc ≠ [] → (nodes.lookup loc.dropLast).any Node.isDir = true
  proper : ∀ loc ∈ nodes.keys, ∀ name ∈ loc, ProperName name

namespace FileTree

variable (tree : FileTree)

/-- The object at a location. -/
def get (loc : Loc) : Option Node := tree.nodes.lookup loc

def isDir (loc : Loc) : Bool := (tree.get loc).any Node.isDir

/-- The names in a directory, in the order in which it lists them. -/
def children (loc : Loc) : List Name :=
  tree.nodes.keys.filterMap fun key ↦
    if key.dropLast = loc then key.getLast? else none

theorem mem_keys_iff {loc : Loc} : loc ∈ tree.nodes.keys ↔ tree.get loc ≠ none := by
  rw [get, ne_eq, AList.lookup_eq_none, not_not, AList.mem_keys]

theorem isDir_nil : tree.isDir [] = true := tree.root

variable {tree}

theorem isDir_iff {loc : Loc} : tree.isDir loc = true ↔ ∃ ino, tree.get loc = some (.dir ino) := by
  unfold isDir
  rcases tree.get loc with _ | (_ | _ | _) <;> simp [Node.isDir]

theorem get_ne_none_of_isDir {loc : Loc} (h : tree.isDir loc = true) : tree.get loc ≠ none := by
  obtain ⟨ino, hget⟩ := isDir_iff.mp h
  simp [hget]

theorem isDir_dropLast {loc : Loc} (h : tree.get loc ≠ none) (hne : loc ≠ []) :
    tree.isDir loc.dropLast = true :=
  tree.parent loc (tree.mem_keys_iff.mpr h) hne

theorem isDir_of_get_concat {loc : Loc} {name : Name} (h : tree.get (loc ++ [name]) ≠ none) :
    tree.isDir loc = true := by
  simpa using isDir_dropLast h (by simp)

theorem properName_of_mem {loc : Loc} (h : tree.get loc ≠ none) {name : Name} (hname : name ∈ loc) :
    ProperName name :=
  tree.proper loc (tree.mem_keys_iff.mpr h) name hname

/-- Nothing lies below a location that holds no directory. -/
theorem get_append_eq_none {loc : Loc} (h : tree.isDir loc = false) :
    ∀ {below : Loc}, below ≠ [] → tree.get (loc ++ below) = none := by
  intro below
  induction below using List.reverseRecOn with
  | nil => exact fun hne ↦ absurd rfl hne
  | append_singleton below name ih =>
    intro _
    by_contra hget
    rw [← List.append_assoc] at hget
    have hdir := isDir_of_get_concat hget
    rcases below.eq_nil_or_concat' with rfl | hbelow
    · rw [List.append_nil, h] at hdir
      exact Bool.false_ne_true hdir
    · have hne : below ≠ [] := by
        obtain ⟨_, _, rfl⟩ := hbelow
        simp
      exact get_ne_none_of_isDir hdir (ih hne)

theorem isDir_append_of_not {loc : Loc} (h : tree.isDir loc = false) (below : Loc) :
    tree.isDir (loc ++ below) = false := by
  by_cases hbelow : below = []
  · rwa [hbelow, List.append_nil]
  · rw [FileTree.isDir, get_append_eq_none h hbelow]
    rfl

/-- Every proper prefix of an existing location is a directory. -/
theorem isDir_of_upper {loc : Loc} (h : tree.get loc ≠ none) {upper : Loc} (hunder : upper <+: loc)
    (hne : upper ≠ loc) : tree.isDir upper = true := by
  obtain ⟨below, rfl⟩ := hunder
  by_contra hdir
  exact h (get_append_eq_none (by simpa using hdir) (fun hbelow ↦ hne (by simp [hbelow])))

theorem mem_children_iff {loc : Loc} {name : Name} :
    name ∈ tree.children loc ↔ tree.get (loc ++ [name]) ≠ none := by
  rw [← mem_keys_iff, children, List.mem_filterMap]
  constructor
  · rintro ⟨key, hkey, hname⟩
    split_ifs at hname with hdrop
    obtain ⟨upper, rfl⟩ := List.getLast?_eq_some_iff.mp hname
    rw [List.dropLast_concat] at hdrop
    rwa [← hdrop]
  · intro hkey
    exact ⟨_, hkey, by simp⟩

/-- A directory with an object somewhere below it has an entry. -/
theorem children_ne_nil {upper loc : Loc} (h : tree.get loc ≠ none) (hunder : upper <+: loc)
    (hne : loc ≠ upper) : tree.children upper ≠ [] := by
  obtain ⟨below, rfl⟩ := hunder
  cases below with
  | nil => exact absurd (List.append_nil upper) hne
  | cons name below =>
    have hexists : tree.get (upper ++ [name]) ≠ none := by
      by_cases hbelow : below = []
      · rwa [hbelow] at h
      · rw [List.append_cons] at h
        exact get_ne_none_of_isDir (isDir_of_upper h (List.prefix_append _ _) (by simp [hbelow]))
    exact List.ne_nil_of_mem (mem_children_iff.mpr hexists)

/-! ### Adding and removing objects -/

/-- A tree with a new object under a free name of a directory. -/
def place (tree : FileTree) (dir : Loc) (name : Name) (node : Node)
    (hdir : tree.isDir dir = true) (hfree : tree.get (dir ++ [name]) = none)
    (hname : ProperName name) : FileTree where
  nodes := tree.nodes.insert (dir ++ [name]) node
  root := by
    rw [AList.lookup_insert_ne (by simp)]
    exact tree.root
  parent := by
    intro loc hloc hne
    have hkeep (upper : Loc) (hupper : tree.isDir upper = true) :
        ((tree.nodes.insert (dir ++ [name]) node).lookup upper).any Node.isDir = true := by
      rw [AList.lookup_insert_ne]
      · exact hupper
      · rintro rfl
        exact get_ne_none_of_isDir hupper hfree
    rw [← AList.mem_keys, AList.mem_insert] at hloc
    rcases hloc with rfl | hloc
    · rw [List.dropLast_concat]
      exact hkeep dir hdir
    · exact hkeep _ (tree.parent loc (AList.mem_keys.mp hloc) hne)
  proper := by
    intro loc hloc other hother
    rw [← AList.mem_keys, AList.mem_insert] at hloc
    rcases hloc with rfl | hloc
    · rcases List.mem_append.mp hother with hother | hother
      · exact properName_of_mem (get_ne_none_of_isDir hdir) hother
      · exact List.mem_singleton.mp hother ▸ hname
    · exact tree.proper loc (AList.mem_keys.mp hloc) other hother

theorem get_place (tree : FileTree) {dir : Loc} {name : Name} {node : Node}
    (hdir : tree.isDir dir = true) (hfree : tree.get (dir ++ [name]) = none)
    (hname : ProperName name) (loc : Loc) :
    (tree.place dir name node hdir hfree hname).get loc =
      if loc = dir ++ [name] then some node else tree.get loc := by
  unfold place get
  split_ifs with h
  · rw [h]
    exact AList.lookup_insert _
  · exact AList.lookup_insert_ne h

/-- A tree without the object at a location that has nothing below it. -/
def remove (tree : FileTree) (loc : Loc) (hne : loc ≠ []) (hleaf : tree.children loc = []) :
    FileTree where
  nodes := tree.nodes.erase loc
  root := by
    rw [AList.lookup_erase_ne hne.symm]
    exact tree.root
  parent := by
    intro other hother hotherNe
    rw [← AList.mem_keys, AList.mem_erase] at hother
    rw [AList.lookup_erase_ne]
    · exact tree.parent other (AList.mem_keys.mp hother.2) hotherNe
    · rintro rfl
      have hchild : other.getLast hotherNe ∈ tree.children other.dropLast := by
        rw [mem_children_iff, List.dropLast_append_getLast]
        exact tree.mem_keys_iff.mp (AList.mem_keys.mp hother.2)
      rw [hleaf] at hchild
      exact List.not_mem_nil hchild
  proper := by
    intro other hother
    rw [← AList.mem_keys, AList.mem_erase] at hother
    exact tree.proper other (AList.mem_keys.mp hother.2)

theorem get_remove (tree : FileTree) {loc : Loc} (hne : loc ≠ []) (hleaf : tree.children loc = [])
    (other : Loc) :
    (tree.remove loc hne hleaf).get other = if other = loc then none else tree.get other := by
  unfold remove get
  split_ifs with h
  · rw [h]
    exact AList.lookup_erase _ _
  · exact AList.lookup_erase_ne h

/-- `place`, where it is possible. -/
def putAt (tree : FileTree) (dir : Loc) (name : Name) (node : Node) : Option FileTree :=
  if h : tree.isDir dir = true ∧ tree.get (dir ++ [name]) = none ∧ ProperName name then
    some (tree.place dir name node h.1 h.2.1 h.2.2)
  else none

theorem free_of_putAt {dir : Loc} {name : Name} {node : Node} {after : FileTree}
    (h : tree.putAt dir name node = some after) : tree.get (dir ++ [name]) = none := by
  rw [putAt] at h
  split_ifs at h with hput
  exact hput.2.1

theorem get_of_putAt {dir : Loc} {name : Name} {node : Node} {after : FileTree}
    (h : tree.putAt dir name node = some after) (loc : Loc) :
    after.get loc = if loc = dir ++ [name] then some node else tree.get loc := by
  rw [putAt] at h
  split_ifs at h with hput
  rw [← Option.some.inj h]
  exact get_place tree hput.1 hput.2.1 hput.2.2 loc

/-- `remove`, where it is possible. -/
def removeLeaf (tree : FileTree) (loc : Loc) : Option FileTree :=
  if h : loc ≠ [] ∧ tree.children loc = [] then some (tree.remove loc h.1 h.2) else none

theorem children_eq_nil {loc : Loc} (h : tree.isDir loc = false) : tree.children loc = [] := by
  refine List.eq_nil_iff_forall_not_mem.mpr fun name hname ↦ ?_
  have hdir := isDir_of_get_concat (mem_children_iff.mp hname)
  rw [h] at hdir
  exact Bool.false_ne_true hdir

theorem removeLeaf_isSome {loc : Loc} (hne : loc ≠ []) (hleaf : tree.children loc = []) :
    ∃ after, tree.removeLeaf loc = some after :=
  ⟨_, dif_pos ⟨hne, hleaf⟩⟩

theorem get_of_removeLeaf {loc : Loc} {after : FileTree} (h : tree.removeLeaf loc = some after)
    (other : Loc) : after.get other = if other = loc then none else tree.get other := by
  rw [removeLeaf] at h
  split_ifs at h with hleaf
  rw [← Option.some.inj h]
  exact get_remove tree hleaf.1 hleaf.2 other

/-! ### Moving a subtree -/

/-- Where an object is after the subtree at `source` has moved to `target`. -/
def relocate (source target loc : Loc) : Loc :=
  if source <+: loc then target ++ loc.drop source.length else loc

theorem relocate_append (source target below : Loc) :
    relocate source target (source ++ below) = target ++ below := by
  simp [relocate]

theorem relocate_of_outside {source target loc : Loc} (h : ¬ source <+: loc) :
    relocate source target loc = loc := if_neg h

/-- What a move of a subtree asks of the tree: the new place is a free, proper
name of a directory outside the subtree. -/
structure Movable (tree : FileTree) (source dir : Loc) (name : Name) : Prop where
  source_ne : source ≠ []
  isDir : tree.isDir dir = true
  free : tree.get (dir ++ [name]) = none
  outside : ¬ source <+: dir ++ [name]
  proper : ProperName name

theorem movable_iff {source dir : Loc} {name : Name} : Movable tree source dir name ↔
    source ≠ [] ∧ tree.isDir dir = true ∧ tree.get (dir ++ [name]) = none ∧
      ¬ source <+: dir ++ [name] ∧ ProperName name :=
  ⟨fun h ↦ ⟨h.source_ne, h.isDir, h.free, h.outside, h.proper⟩,
    fun h ↦ ⟨h.1, h.2.1, h.2.2.1, h.2.2.2.1, h.2.2.2.2⟩⟩

instance (source dir : Loc) (name : Name) : Decidable (Movable tree source dir name) :=
  decidable_of_iff _ movable_iff.symm

namespace Movable

variable {source dir : Loc} {name : Name} (h : Movable tree source dir name)

include h

theorem not_prefix_dir : ¬ source <+: dir :=
  fun hunder ↦ h.outside (hunder.trans (List.prefix_append _ _))

theorem get_below (below : Loc) : tree.get (dir ++ [name] ++ below) = none := by
  rcases below.eq_nil_or_concat' with rfl | ⟨_, _, rfl⟩
  · simpa using h.free
  · exact get_append_eq_none (by simp [FileTree.isDir, h.free]) (by simp)

/-- Distinct objects stay apart: nothing lay at or below the new place. -/
theorem relocate_injOn {first second : Loc} (hfirst : tree.get first ≠ none)
    (hsecond : tree.get second ≠ none)
    (heq : relocate source (dir ++ [name]) first = relocate source (dir ++ [name]) second) :
    first = second := by
  by_cases hin₁ : source <+: first
  · obtain ⟨below₁, rfl⟩ := hin₁
    rw [relocate_append] at heq
    by_cases hin₂ : source <+: second
    · obtain ⟨below₂, rfl⟩ := hin₂
      rw [relocate_append] at heq
      rw [List.append_cancel_left heq]
    · rw [relocate_of_outside hin₂] at heq
      exact absurd (heq ▸ h.get_below below₁) hsecond
  · rw [relocate_of_outside hin₁] at heq
    by_cases hin₂ : source <+: second
    · obtain ⟨below₂, rfl⟩ := hin₂
      rw [relocate_append] at heq
      exact absurd (heq ▸ h.get_below below₂) hfirst
    · rwa [relocate_of_outside hin₂] at heq

/-- The objects after the move. -/
def movedNodes : AList fun _ : Loc ↦ Node where
  entries := tree.nodes.entries.map fun entry ↦
    ⟨relocate source (dir ++ [name]) entry.1, entry.2⟩
  nodupKeys := by
    rw [List.NodupKeys, List.keys, List.map_map]
    change (tree.nodes.entries.map (relocate source (dir ++ [name]) ∘ Sigma.fst)).Nodup
    rw [← List.map_map]
    refine tree.nodes.keys_nodup.map_on fun first hfirst second hsecond heq ↦ ?_
    exact h.relocate_injOn (tree.mem_keys_iff.mp hfirst) (tree.mem_keys_iff.mp hsecond) heq

theorem movedNodes_lookup_eq_some_iff {loc : Loc} {node : Node} :
    h.movedNodes.lookup loc = some node ↔
      ∃ old, tree.get old = some node ∧ relocate source (dir ++ [name]) old = loc := by
  rw [← Option.mem_def, AList.mem_lookup_iff]
  simp only [movedNodes, List.mem_map, get]
  constructor
  · rintro ⟨⟨old, _⟩, hmem, heq⟩
    obtain ⟨hloc, hnode⟩ := Sigma.mk.inj heq
    obtain rfl := eq_of_heq hnode
    exact ⟨old, AList.mem_lookup_iff.mpr hmem, hloc⟩
  · rintro ⟨old, hget, rfl⟩
    exact ⟨⟨old, node⟩, AList.mem_lookup_iff.mp hget, rfl⟩

theorem movedNodes_isDir {upper : Loc} (hupper : tree.isDir upper = true) :
    (h.movedNodes.lookup (relocate source (dir ++ [name]) upper)).any Node.isDir = true := by
  obtain ⟨ino, hget⟩ := isDir_iff.mp hupper
  rw [h.movedNodes_lookup_eq_some_iff.mpr ⟨upper, hget, rfl⟩]
  rfl

theorem exists_of_mem_movedNodes {loc : Loc} (hloc : loc ∈ h.movedNodes.keys) :
    ∃ old, tree.get old ≠ none ∧ relocate source (dir ++ [name]) old = loc := by
  obtain ⟨node, hnode⟩ := Option.isSome_iff_exists.mp
    (AList.lookup_isSome.mpr (AList.mem_keys.mpr hloc))
  obtain ⟨old, hget, hold⟩ := h.movedNodes_lookup_eq_some_iff.mp hnode
  exact ⟨old, by simp [hget], hold⟩

end Movable

/-- The tree after the subtree at `source` has moved to a name of `dir`. -/
def move (tree : FileTree) (source dir : Loc) (name : Name) (h : Movable tree source dir name) :
    FileTree where
  nodes := h.movedNodes
  root := by
    have hnil : relocate source (dir ++ [name]) [] = [] :=
      relocate_of_outside fun hunder ↦ h.source_ne (List.prefix_nil.mp hunder)
    have hroot := h.movedNodes_isDir tree.isDir_nil
    rwa [hnil] at hroot
  parent := by
    intro loc hloc hne
    obtain ⟨old, hget, rfl⟩ := h.exists_of_mem_movedNodes hloc
    by_cases hin : source <+: old
    · obtain ⟨below, rfl⟩ := hin
      rcases below.eq_nil_or_concat' with rfl | ⟨upper, last, rfl⟩
      · rw [relocate_append, List.append_nil, List.dropLast_concat]
        have hdir := h.movedNodes_isDir h.isDir
        rwa [relocate_of_outside h.not_prefix_dir] at hdir
      · rw [← List.append_assoc] at hget
        have hdir := h.movedNodes_isDir (isDir_of_get_concat hget)
        rw [relocate_append] at hdir ⊢
        rwa [← List.append_assoc, List.dropLast_concat]
    · rw [relocate_of_outside hin] at hne ⊢
      have hupper := h.movedNodes_isDir (isDir_dropLast hget hne)
      rwa [relocate_of_outside
        fun hunder ↦ hin (hunder.trans (List.dropLast_prefix old))] at hupper
  proper := by
    intro loc hloc other hother
    obtain ⟨old, hget, rfl⟩ := h.exists_of_mem_movedNodes hloc
    by_cases hin : source <+: old
    · obtain ⟨below, rfl⟩ := hin
      rw [relocate_append, List.append_assoc] at hother
      rcases List.mem_append.mp hother with hother | hother
      · exact properName_of_mem (get_ne_none_of_isDir h.isDir) hother
      · rcases List.mem_append.mp hother with hother | hother
        · exact List.mem_singleton.mp hother ▸ h.proper
        · exact properName_of_mem hget (List.mem_append_right _ hother)
    · rw [relocate_of_outside hin] at hother
      exact properName_of_mem hget hother

theorem get_move (tree : FileTree) {source dir : Loc} {name : Name}
    (h : Movable tree source dir name) (loc : Loc) :
    (tree.move source dir name h).get loc =
      if dir ++ [name] <+: loc then tree.get (source ++ loc.drop (dir ++ [name]).length)
      else if source <+: loc then none
      else tree.get loc := by
  ext node
  change h.movedNodes.lookup loc = some node ↔ _
  rw [h.movedNodes_lookup_eq_some_iff]
  split_ifs with htarget hsource
  · obtain ⟨below, rfl⟩ := htarget
    rw [List.drop_left]
    constructor
    · rintro ⟨old, hget, heq⟩
      by_cases hin : source <+: old
      · obtain ⟨oldBelow, rfl⟩ := hin
        rw [relocate_append] at heq
        rwa [← List.append_cancel_left heq]
      · rw [relocate_of_outside hin] at heq
        rw [heq, h.get_below below] at hget
        exact nomatch hget
    · exact fun hget ↦ ⟨_, hget, relocate_append _ _ _⟩
  · simp only [iff_false]
    rintro ⟨old, hget, heq⟩
    by_cases hin : source <+: old
    · obtain ⟨oldBelow, rfl⟩ := hin
      rw [relocate_append] at heq
      exact htarget (heq ▸ List.prefix_append _ _)
    · rw [relocate_of_outside hin] at heq
      exact hin (heq ▸ hsource)
  · constructor
    · rintro ⟨old, hget, heq⟩
      by_cases hin : source <+: old
      · obtain ⟨oldBelow, rfl⟩ := hin
        rw [relocate_append] at heq
        exact absurd (heq ▸ List.prefix_append _ _) htarget
      · rw [relocate_of_outside hin] at heq
        rwa [← heq]
    · exact fun hget ↦ ⟨loc, hget, relocate_of_outside hsource⟩

/-- `move`, where it is possible. -/
def moveTo (tree : FileTree) (source dir : Loc) (name : Name) : Option FileTree :=
  if h : Movable tree source dir name then some (tree.move source dir name h) else none

theorem movable_of_moveTo {source dir : Loc} {name : Name} {after : FileTree}
    (h : tree.moveTo source dir name = some after) : Movable tree source dir name := by
  rw [moveTo] at h
  split_ifs at h with hmove
  exact hmove

theorem get_of_moveTo {source dir : Loc} {name : Name} {after : FileTree}
    (h : tree.moveTo source dir name = some after) (loc : Loc) :
    after.get loc =
      if dir ++ [name] <+: loc then tree.get (source ++ loc.drop (dir ++ [name]).length)
      else if source <+: loc then none
      else tree.get loc := by
  rw [moveTo] at h
  split_ifs at h with hmove
  rw [← Option.some.inj h]
  exact get_move tree hmove loc

/-- A symbolic link or a file can be moved to every free name. -/
theorem movable_of_not_isDir {source dir : Loc} {name : Name} (hsource : tree.get source ≠ none)
    (hleaf : tree.isDir source = false) (hdir : tree.isDir dir = true)
    (hfree : tree.get (dir ++ [name]) = none) (hname : ProperName name) :
    Movable tree source dir name where
  source_ne := by
    rintro rfl
    rw [isDir_nil] at hleaf
    exact Bool.false_ne_true hleaf.symm
  isDir := hdir
  free := hfree
  outside := by
    intro hunder
    rcases List.prefix_concat_iff.mp hunder with heq | hunder
    · exact hsource (heq ▸ hfree)
    · by_cases heq : source = dir
      · rw [heq, hdir] at hleaf
        exact Bool.false_ne_true hleaf.symm
      · have hupper := isDir_of_upper (get_ne_none_of_isDir hdir) hunder heq
        rw [hupper] at hleaf
        exact Bool.false_ne_true hleaf.symm
  proper := hname

end FileTree

end LibSshpp.Posix
