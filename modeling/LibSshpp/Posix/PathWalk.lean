import LibSshpp.Posix.FileTree

/-!
Pathname resolution: how the kernel walks a path through a directory tree,
following symbolic links up to a limit. A walk ends at an object, or at a name
missing from a directory with the components that were still to come, or with an
error. Facts about walks go by `walk_induction`, which has one case for each way a
walk takes its next component.
-/

set_option autoImplicit false
set_option relaxedAutoImplicit false

namespace LibSshpp.Posix

inductive Errno
  | eperm | enoent | eintr | eio | ebadf | enomem | eacces | ebusy | eexist | exdev | enotdir
  | eisdir | einval | enfile | emfile | efbig | enospc | erofs | enametoolong | enotempty | eloop
  | edquot
  deriving DecidableEq, Repr

/-- `strerror`. -/
def strerror : Errno → String
  | .eperm => "Operation not permitted"
  | .enoent => "No such file or directory"
  | .eintr => "Interrupted system call"
  | .eio => "Input/output error"
  | .ebadf => "Bad file descriptor"
  | .enomem => "Cannot allocate memory"
  | .eacces => "Permission denied"
  | .ebusy => "Device or resource busy"
  | .eexist => "File exists"
  | .exdev => "Invalid cross-device link"
  | .enotdir => "Not a directory"
  | .eisdir => "Is a directory"
  | .einval => "Invalid argument"
  | .enfile => "Too many open files in system"
  | .emfile => "Too many open files"
  | .efbig => "File too large"
  | .enospc => "No space left on device"
  | .erofs => "Read-only file system"
  | .enametoolong => "File name too long"
  | .enotempty => "Directory not empty"
  | .eloop => "Too many levels of symbolic links"
  | .edquot => "Disk quota exceeded"

/-! ### Paths -/

/-- A pathname as its components. An empty last component stands for a trailing
separator. -/
structure Path where
  absolute : Bool
  comps : List Name
  deriving DecidableEq, Repr

/-- The texts between the slashes. -/
def segments : Bytes → List Name
  | [] => [[]]
  | byte :: rest =>
    if byte = 0x2f then [] :: segments rest
    else match segments rest with
      | first :: others => (byte :: first) :: others
      | [] => [[byte]]

/-- The pathname a text denotes: slashes in a row count as one, and a final slash
after a name leaves an empty component. -/
def Path.ofBytes (text : Bytes) : Path where
  absolute := text.head? = some 0x2f
  comps :=
    let parts := segments text
    let names := parts.filter (· ≠ [])
    if names ≠ [] ∧ parts.getLast? = some [] then names ++ [[]] else names

theorem segments_of_notMem {text : Bytes} (h : 0x2f ∉ text) : segments text = [text] := by
  induction text with
  | nil => rfl
  | cons byte rest ih =>
    rw [List.mem_cons, not_or] at h
    rw [segments, if_neg (Ne.symm h.1), ih h.2]

theorem slash_notMem_segments {text : Bytes} {part : Name} (h : part ∈ segments text) :
    0x2f ∉ part := by
  induction text generalizing part with
  | nil =>
    rw [List.mem_singleton.mp h]
    exact List.not_mem_nil
  | cons byte rest ih =>
    rw [segments] at h
    split_ifs at h with hslash
    · rcases List.mem_cons.mp h with rfl | hpart
      · exact List.not_mem_nil
      · exact ih hpart
    · split at h
      · next first others hrest =>
        rcases List.mem_cons.mp h with rfl | hpart
        · rw [List.mem_cons, not_or]
          exact ⟨Ne.symm hslash, ih (hrest ▸ List.mem_cons_self)⟩
        · exact ih (hrest ▸ List.mem_cons_of_mem _ hpart)
      · rw [List.mem_singleton.mp h, List.mem_singleton]
        exact Ne.symm hslash

theorem Path.slash_notMem_ofBytes {text : Bytes} {comp : Name} (h : comp ∈ (ofBytes text).comps) :
    0x2f ∉ comp := by
  have hparts : ∀ part ∈ (segments text).filter (· ≠ []), 0x2f ∉ part :=
    fun part hpart ↦ slash_notMem_segments (List.mem_of_mem_filter hpart)
  unfold ofBytes at h
  simp only at h
  split_ifs at h
  · rcases List.mem_append.mp h with hcomp | hcomp
    · exact hparts comp hcomp
    · rw [List.mem_singleton.mp hcomp]
      exact List.not_mem_nil
  · exact hparts comp h

/-- A text without a slash is the pathname of one component. -/
theorem Path.ofBytes_name {name : Name} (hne : name ≠ []) (h : 0x2f ∉ name) :
    Path.ofBytes name = ⟨false, [name]⟩ := by
  have hhead : name.head? ≠ some 0x2f := fun hslash ↦ h (List.mem_of_head? hslash)
  simp [Path.ofBytes, segments_of_notMem h, hne, hhead]

theorem Path.ofBytes_comps_ne_nil {text : Bytes} (hne : text ≠ []) (h : text.head? ≠ some 0x2f) :
    (Path.ofBytes text).comps ≠ [] := by
  obtain ⟨byte, rest, rfl⟩ := List.exists_cons_of_ne_nil hne
  have hbyte : byte ≠ 0x2f := fun heq ↦ h (by rw [heq]; rfl)
  have hpart : ∃ part ∈ segments (byte :: rest), part ≠ [] := by
    rw [segments, if_neg hbyte]
    split
    · exact ⟨_, List.mem_cons_self, List.cons_ne_nil _ _⟩
    · exact ⟨_, List.mem_cons_self, List.cons_ne_nil _ _⟩
  obtain ⟨part, hmem, hpart⟩ := hpart
  have hnames : (segments (byte :: rest)).filter (· ≠ []) ≠ [] :=
    List.ne_nil_of_mem (List.mem_filter.mpr ⟨hmem, by simpa using hpart⟩)
  simp only [Path.ofBytes]
  split_ifs
  · exact List.append_ne_nil_of_left_ne_nil hnames _
  · exact hnames

theorem Path.ofBytes_comps_ne (text : Bytes) : (Path.ofBytes text).comps ≠ [[]] := by
  have hnames : ∀ name ∈ (segments text).filter (· ≠ []), name ≠ [] :=
    fun name hname ↦ by simpa using (List.mem_filter.mp hname).2
  simp only [Path.ofBytes]
  split_ifs with hopen
  · intro heq
    exact hopen.1 (List.append_left_eq_self.mp (heq.trans (List.nil_append [[]]).symm))
  · intro heq
    exact hnames [] (by rw [heq]; exact List.mem_cons_self) rfl

/-- A component that leaves the walk where it is. -/
def isIdle (comp : Name) : Prop := comp = [] ∨ comp = dot

instance (comp : Name) : Decidable (isIdle comp) := inferInstanceAs (Decidable (_ ∨ _))

/-- A component that names a directory entry. -/
def isEntryName (comp : Name) : Prop := ¬ isIdle comp ∧ comp ≠ dotdot

instance (comp : Name) : Decidable (isEntryName comp) := inferInstanceAs (Decidable (_ ∧ _))

/-! ### Walks -/

inductive Walk
  | found (loc : Loc)
  | missing (dir : Loc) (name : Name) (rest : List Name)
  | failed (error : Errno)
  deriving DecidableEq

/-- Where the walk of a link's target starts when the link lies in `dir`. -/
def linkStart (dir : Loc) (target : LinkTarget) : Loc :=
  if (Path.ofBytes target.val).absolute then [] else dir

def linkComps (target : LinkTarget) : List Name := (Path.ofBytes target.val).comps

/-- A walk from the directory `cur` along the given components, up to the first
link that has to be followed, where `jump` takes over. The last component is
followed only if `follow` is set. -/
def scan (tree : FileTree) (follow : Bool) (jump : Loc → List Name → Walk) :
    Loc → List Name → Walk
  | cur, [] => .found cur
  | cur, comp :: rest =>
    if isIdle comp then scan tree follow jump cur rest
    else if comp = dotdot then scan tree follow jump cur.dropLast rest
    else match tree.get (cur ++ [comp]) with
      | none => .missing cur comp rest
      | some (.dir _) => scan tree follow jump (cur ++ [comp]) rest
      | some (.file _) => if rest = [] then .found (cur ++ [comp]) else .failed .enotdir
      | some (.symlink target _) =>
        if rest = [] ∧ follow = false then .found (cur ++ [comp])
        else jump (linkStart cur target) (linkComps target ++ rest)

/-- The kernel's walk, with the number of links it may still follow. -/
def walk (tree : FileTree) (follow : Bool) : ℕ → Loc → List Name → Walk
  | 0 => scan tree follow fun _ _ ↦ .failed .eloop
  | links + 1 => scan tree follow (walk tree follow links)

/-- How many links one resolution may follow. -/
def maxSymlinks : ℕ := 40

section Equations

variable {tree : FileTree} {follow : Bool} {links : ℕ} {cur : Loc} {comp : Name}
  {rest : List Name}

@[simp] theorem walk_nil : walk tree follow links cur [] = .found cur := by
  cases links <;> rw [walk, scan]

theorem walk_idle (h : isIdle comp) :
    walk tree follow links cur (comp :: rest) = walk tree follow links cur rest := by
  cases links <;> rw [walk, scan, if_pos h]

theorem walk_dotdot : walk tree follow links cur (dotdot :: rest) =
    walk tree follow links cur.dropLast rest := by
  cases links <;> rw [walk, scan, if_neg (by decide), if_pos rfl]

theorem walk_absent (h : isEntryName comp) (hget : tree.get (cur ++ [comp]) = none) :
    walk tree follow links cur (comp :: rest) = .missing cur comp rest := by
  cases links <;> rw [walk, scan, if_neg h.1, if_neg h.2, hget]

theorem walk_dir (h : isEntryName comp) {ino : ℕ}
    (hget : tree.get (cur ++ [comp]) = some (.dir ino)) :
    walk tree follow links cur (comp :: rest) = walk tree follow links (cur ++ [comp]) rest := by
  cases links <;> rw [walk, scan, if_neg h.1, if_neg h.2, hget]

theorem walk_file (h : isEntryName comp) {ino : ℕ}
    (hget : tree.get (cur ++ [comp]) = some (.file ino)) :
    walk tree follow links cur (comp :: rest) =
      if rest = [] then .found (cur ++ [comp]) else .failed .enotdir := by
  cases links <;> rw [walk, scan, if_neg h.1, if_neg h.2, hget]

variable {target : LinkTarget} {attr : NodeAttr}

theorem walk_link_kept (h : isEntryName comp)
    (hget : tree.get (cur ++ [comp]) = some (.symlink target attr)) :
    walk tree false links cur [comp] = .found (cur ++ [comp]) := by
  cases links <;> rw [walk, scan, if_neg h.1, if_neg h.2, hget] <;> exact if_pos ⟨rfl, rfl⟩

theorem walk_link_exhausted (h : isEntryName comp)
    (hget : tree.get (cur ++ [comp]) = some (.symlink target attr))
    (hgo : ¬ (rest = [] ∧ follow = false)) :
    walk tree follow 0 cur (comp :: rest) = .failed .eloop := by
  rw [walk, scan, if_neg h.1, if_neg h.2, hget]
  exact if_neg hgo

theorem walk_link (h : isEntryName comp)
    (hget : tree.get (cur ++ [comp]) = some (.symlink target attr))
    (hgo : ¬ (rest = [] ∧ follow = false)) :
    walk tree follow (links + 1) cur (comp :: rest) =
      walk tree follow links (linkStart cur target) (linkComps target ++ rest) := by
  rw [walk, scan, if_neg h.1, if_neg h.2, hget]
  exact if_neg hgo

end Equations

/-- Induction along a walk: one case for each way a walk takes its next component. -/
theorem walk_induction (tree : FileTree) (follow : Bool)
    {motive : ℕ → Loc → List Name → Prop}
    (nil : ∀ links cur, motive links cur [])
    (idle : ∀ links cur comp rest, isIdle comp → motive links cur rest →
      motive links cur (comp :: rest))
    (up : ∀ links cur rest, motive links cur.dropLast rest → motive links cur (dotdot :: rest))
    (absent : ∀ links cur comp rest, isEntryName comp → tree.get (cur ++ [comp]) = none →
      motive links cur (comp :: rest))
    (dir : ∀ links cur comp rest ino, isEntryName comp →
      tree.get (cur ++ [comp]) = some (.dir ino) → motive links (cur ++ [comp]) rest →
        motive links cur (comp :: rest))
    (file : ∀ links cur comp rest ino, isEntryName comp →
      tree.get (cur ++ [comp]) = some (.file ino) → motive links cur (comp :: rest))
    (kept : ∀ links cur comp target attr, isEntryName comp →
      tree.get (cur ++ [comp]) = some (.symlink target attr) → follow = false →
        motive links cur [comp])
    (exhausted : ∀ cur comp rest target attr, isEntryName comp →
      tree.get (cur ++ [comp]) = some (.symlink target attr) → ¬ (rest = [] ∧ follow = false) →
        motive 0 cur (comp :: rest))
    (link : ∀ links cur comp rest target attr, isEntryName comp →
      tree.get (cur ++ [comp]) = some (.symlink target attr) → ¬ (rest = [] ∧ follow = false) →
        motive links (linkStart cur target) (linkComps target ++ rest) →
          motive (links + 1) cur (comp :: rest)) :
    ∀ links cur comps, motive links cur comps := by
  intro links
  induction links using Nat.strong_induction_on with
  | h links ihLinks =>
    intro cur comps
    induction comps generalizing cur with
    | nil => exact nil links cur
    | cons comp rest ih =>
      by_cases hidle : isIdle comp
      · exact idle links cur comp rest hidle (ih cur)
      · by_cases hup : comp = dotdot
        · exact hup ▸ up links cur rest (ih cur.dropLast)
        · have hentry : isEntryName comp := ⟨hidle, hup⟩
          rcases hget : tree.get (cur ++ [comp]) with _ | (ino | ino | ⟨target, attr⟩)
          · exact absent links cur comp rest hentry hget
          · exact dir links cur comp rest ino hentry hget (ih (cur ++ [comp]))
          · exact file links cur comp rest ino hentry hget
          · by_cases hgo : rest = [] ∧ follow = false
            · rw [hgo.1]
              exact kept links cur comp target attr hentry hget hgo.2
            · cases links with
              | zero => exact exhausted cur comp rest target attr hentry hget hgo
              | succ links =>
                exact link links cur comp rest target attr hentry hget hgo
                  (ihLinks links (Nat.lt_succ_self links) _ _)

/-- More links to follow change nothing about a walk that had enough. -/
theorem walk_of_not_eloop {tree : FileTree} {follow : Bool} {links : ℕ} {cur : Loc}
    {comps : List Name} (h : walk tree follow links cur comps ≠ .failed .eloop) {more : ℕ}
    (hmore : links ≤ more) :
    walk tree follow more cur comps = walk tree follow links cur comps := by
  revert more h
  induction links, cur, comps using walk_induction tree follow with
  | nil links cur => intros; simp
  | idle links cur comp rest hidle ih =>
    intro h more hmore
    rw [walk_idle hidle] at h
    rw [walk_idle hidle, walk_idle hidle]
    exact ih h hmore
  | up links cur rest ih =>
    intro h more hmore
    rw [walk_dotdot] at h
    rw [walk_dotdot, walk_dotdot]
    exact ih h hmore
  | absent links cur comp rest hentry hget =>
    intros
    rw [walk_absent hentry hget, walk_absent hentry hget]
  | dir links cur comp rest ino hentry hget ih =>
    intro h more hmore
    rw [walk_dir hentry hget] at h
    rw [walk_dir hentry hget, walk_dir hentry hget]
    exact ih h hmore
  | file links cur comp rest ino hentry hget =>
    intros
    rw [walk_file hentry hget, walk_file hentry hget]
  | kept links cur comp target attr hentry hget hfollow =>
    intros
    rw [hfollow, walk_link_kept hentry hget, walk_link_kept hentry hget]
  | exhausted cur comp rest target attr hentry hget hgo =>
    intro h
    exact absurd (walk_link_exhausted hentry hget hgo) h
  | link links cur comp rest target attr hentry hget hgo ih =>
    intro h more hmore
    obtain ⟨more, rfl⟩ := Nat.exists_eq_add_of_le' (show 1 ≤ more by omega)
    rw [walk_link hentry hget hgo] at h ⊢
    rw [walk_link hentry hget hgo]
    exact ih h (by omega)

/-- A walk that is not stopped by the number of links has the result it has with
any other number that suffices. -/
theorem walk_eq_or_eloop {tree : FileTree} {follow : Bool} {links more : ℕ} (hmore : links ≤ more)
    (cur : Loc) (comps : List Name) :
    walk tree follow links cur comps = walk tree follow more cur comps ∨
      walk tree follow links cur comps = .failed .eloop := by
  by_cases h : walk tree follow links cur comps = .failed .eloop
  · exact Or.inr h
  · exact Or.inl (walk_of_not_eloop h hmore).symm

theorem isDir_linkStart {tree : FileTree} {dir : Loc} (h : tree.isDir dir = true)
    (target : LinkTarget) : tree.isDir (linkStart dir target) = true := by
  unfold linkStart
  split_ifs
  · exact tree.isDir_nil
  · exact h

theorem isDir_dropLast_of_isDir {tree : FileTree} {loc : Loc} (h : tree.isDir loc = true) :
    tree.isDir loc.dropLast = true := by
  by_cases hne : loc = []
  · rw [hne]
    exact tree.isDir_nil
  · exact FileTree.isDir_dropLast (FileTree.get_ne_none_of_isDir h) hne

/-- Where a walk can end: at an object of the tree, or before a free name of a
directory. -/
def Walk.Sound (tree : FileTree) : Walk → Prop
  | .found loc => tree.get loc ≠ none
  | .missing dir name _ =>
    tree.isDir dir = true ∧ isEntryName name ∧ tree.get (dir ++ [name]) = none
  | .failed _ => True

theorem walk_sound {tree : FileTree} {follow : Bool} {links : ℕ} {cur : Loc} {comps : List Name}
    (hcur : tree.isDir cur = true) : (walk tree follow links cur comps).Sound tree := by
  induction links, cur, comps using walk_induction tree follow with
  | nil links cur =>
    rw [walk_nil]
    exact FileTree.get_ne_none_of_isDir hcur
  | idle links cur comp rest hidle ih =>
    rw [walk_idle hidle]
    exact ih hcur
  | up links cur rest ih =>
    rw [walk_dotdot]
    exact ih (isDir_dropLast_of_isDir hcur)
  | absent links cur comp rest hentry hget =>
    rw [walk_absent hentry hget]
    exact ⟨hcur, hentry, hget⟩
  | dir links cur comp rest ino hentry hget ih =>
    rw [walk_dir hentry hget]
    exact ih (FileTree.isDir_iff.mpr ⟨ino, hget⟩)
  | file links cur comp rest ino hentry hget =>
    rw [walk_file hentry hget]
    split_ifs
    · simp [Walk.Sound, hget]
    · trivial
  | kept links cur comp target attr hentry hget hfollow =>
    rw [hfollow, walk_link_kept hentry hget]
    simp [Walk.Sound, hget]
  | exhausted cur comp rest target attr hentry hget hgo =>
    rw [walk_link_exhausted hentry hget hgo]
    trivial
  | link links cur comp rest target attr hentry hget hgo ih =>
    rw [walk_link hentry hget hgo]
    exact ih (isDir_linkStart hcur target)

/-! ### Walking one path after another -/

/-- How the walk of `first ++ second` continues from the end of the walk of `first`:
with at most as many links left, from the directory that was reached. -/
def Walk.Continues (tree : FileTree) (follow : Bool) (links : ℕ) (second : List Name) :
    Walk → Walk → Prop
  | .found loc, whole =>
    if tree.isDir loc = true then
      ∃ left ≤ links, whole = walk tree follow left loc second
    else whole = .failed .enotdir
  | .missing dir name rest, whole => whole = .missing dir name (rest ++ second)
  | .failed error, whole => whole = .failed error

theorem Walk.Continues.mono {tree : FileTree} {follow : Bool} {links more : ℕ}
    (hmore : links ≤ more) {second : List Name} {whole first : Walk}
    (h : first.Continues tree follow links second whole) :
    first.Continues tree follow more second whole := by
  cases first with
  | found loc =>
    rw [Continues] at h ⊢
    split_ifs at h ⊢
    · obtain ⟨left, hleft, heq⟩ := h
      exact ⟨left, hleft.trans hmore, heq⟩
    · exact h
  | missing dir name rest => exact h
  | failed error => exact h

/-- The walk of a path goes on from where the walk of its beginning ends. -/
theorem walk_append {tree : FileTree} (follow : Bool) (links : ℕ) {cur : Loc}
    (first : List Name) {second : List Name} (hsecond : second ≠ [])
    (hcur : tree.isDir cur = true) :
    (walk tree true links cur first).Continues tree follow links second
      (walk tree follow links cur (first ++ second)) := by
  induction links, cur, first using walk_induction tree true with
  | nil links cur =>
    rw [walk_nil, Walk.Continues, if_pos hcur]
    exact ⟨links, le_rfl, rfl⟩
  | idle links cur comp rest hidle ih =>
    rw [walk_idle hidle, List.cons_append, walk_idle hidle]
    exact ih hcur
  | up links cur rest ih =>
    rw [walk_dotdot, List.cons_append, walk_dotdot]
    exact ih (isDir_dropLast_of_isDir hcur)
  | absent links cur comp rest hentry hget =>
    rw [walk_absent hentry hget, List.cons_append, walk_absent hentry hget]
    rfl
  | dir links cur comp rest ino hentry hget ih =>
    rw [walk_dir hentry hget, List.cons_append, walk_dir hentry hget]
    exact ih (FileTree.isDir_iff.mpr ⟨ino, hget⟩)
  | file links cur comp rest ino hentry hget =>
    rw [walk_file hentry hget, List.cons_append, walk_file hentry hget,
      if_neg (fun h ↦ hsecond (List.append_eq_nil_iff.mp h).2)]
    split_ifs
    · have hfile : tree.isDir (cur ++ [comp]) = false := by
        rw [FileTree.isDir, hget]
        rfl
      rw [Walk.Continues, hfile]
      rfl
    · rfl
  | kept links cur comp target attr hentry hget hfollow => exact absurd hfollow (by decide)
  | exhausted cur comp rest target attr hentry hget hgo =>
    rw [walk_link_exhausted hentry hget hgo, List.cons_append,
      walk_link_exhausted hentry hget (by simp [hsecond])]
    rfl
  | link links cur comp rest target attr hentry hget hgo ih =>
    rw [walk_link hentry hget hgo, List.cons_append, walk_link hentry hget (by simp [hsecond]),
      ← List.append_assoc]
    exact (ih (isDir_linkStart hcur target)).mono (Nat.le_succ links)

/-- The last name of a path is looked up, and not followed. -/
theorem walk_lastName {tree : FileTree} {links : ℕ} {dir : Loc} {last : Name}
    (hlast : isEntryName last) :
    walk tree false links dir [last] =
      if tree.get (dir ++ [last]) = none then .missing dir last [] else .found (dir ++ [last]) := by
  rcases hget : tree.get (dir ++ [last]) with _ | (ino | ino | ⟨target, attr⟩)
  · rw [walk_absent hlast hget, if_pos rfl]
  · rw [walk_dir hlast hget, walk_nil, if_neg (Option.some_ne_none _)]
  · rw [walk_file hlast hget, if_pos rfl, if_neg (Option.some_ne_none _)]
  · rw [walk_link_kept hlast hget, if_neg (Option.some_ne_none _)]

/-- An entry that a path names without following it lies in the directory that the path
leads to without its last name. -/
theorem walk_upper_of_found {tree : FileTree} {links : ℕ} {cur loc : Loc} {upper : List Name}
    {last : Name} (hlast : isEntryName last) (hcur : tree.isDir cur = true)
    (h : walk tree false links cur (upper ++ [last]) = .found loc) :
    ∃ dir, walk tree true links cur upper = .found dir ∧ loc = dir ++ [last] := by
  have hcontinues := walk_append false links upper (List.cons_ne_nil last []) hcur
  rw [h] at hcontinues
  rcases hwalk : walk tree true links cur upper with dir | ⟨dir, name, rest⟩ | error
  · rw [hwalk, Walk.Continues] at hcontinues
    split_ifs at hcontinues
    obtain ⟨left, -, heq⟩ := hcontinues
    rw [walk_lastName hlast] at heq
    split_ifs at heq
    exact ⟨dir, rfl, Walk.found.inj heq⟩
  · rw [hwalk, Walk.Continues] at hcontinues
    exact nomatch hcontinues
  · rw [hwalk, Walk.Continues] at hcontinues
    exact nomatch hcontinues

/-- The physical path of a directory leads to it without following any link. -/
theorem walk_physical {tree : FileTree} {follow : Bool} {links : ℕ} {cur : Loc} (below : Loc)
    (h : tree.isDir (cur ++ below) = true) (rest : List Name) :
    walk tree follow links cur (below ++ rest) = walk tree follow links (cur ++ below) rest := by
  induction below generalizing cur with
  | nil => simp
  | cons name below ih =>
    have hexists := FileTree.get_ne_none_of_isDir h
    have hproper : ProperName name := FileTree.properName_of_mem hexists (by simp)
    have hentry : isEntryName name := ⟨fun hidle ↦ hidle.elim hproper.1 hproper.2.1, hproper.2.2.1⟩
    rw [List.append_cons] at h
    have hdir : tree.isDir (cur ++ [name]) = true := by
      by_cases hbelow : below = []
      · simpa [hbelow] using h
      · exact FileTree.isDir_of_upper (FileTree.get_ne_none_of_isDir h) (List.prefix_append _ _)
          (by simp [hbelow])
    obtain ⟨ino, hget⟩ := FileTree.isDir_iff.mp hdir
    rw [List.cons_append, walk_dir hentry hget, ih h, ← List.append_cons]

end LibSshpp.Posix
