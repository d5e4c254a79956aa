import LibSshpp.Posix.LinkEntries
import LibSshpp.Posix.FileStream

/-!
Objects that are added to a file system: the directories of `create_directories` and the
files that an output stream writes. What was there stays, so a path that led somewhere
still leads there, and new objects get new inodes.
-/

set_option autoImplicit false
set_option relaxedAutoImplicit false

namespace LibSshpp.Posix

namespace FileSystem

/-! ### Calls that add objects -/

/-- The missing directories of a path, one after another from the top. -/
def createMissing (absolute : Bool) :
    List Name → List Name → FileSystem → Except Errno Unit × FileSystem
  | _, [], fs => (.ok (), fs)
  | found, comp :: rest, fs =>
    match fs.statusExists ⟨absolute, found ++ [comp]⟩ with
    | .error error => (.error error, fs)
    | .ok true => createMissing absolute (found ++ [comp]) rest fs
    | .ok false =>
      match fs.mkdir ⟨absolute, found ++ [comp]⟩ 0o777 with
      | .error error => (.error error, fs)
      | .ok done => createMissing absolute (found ++ [comp]) rest done.fs

/-- `create_directories`. -/
def createDirectories (fs : FileSystem) (path : Path) : Except Errno Unit × FileSystem :=
  if path.absolute = false ∧ path.comps = [] then (.error .einval, fs)
  else match fs.lookup true path with
    | .ok loc => if fs.tree.isDir loc then (.ok (), fs) else (.error .enotdir, fs)
    | .error error =>
      if isNotFound error then createMissing path.absolute [] path.entry.comps fs
      else (.error error, fs)

/-- How an `std::ofstream` opens its file. -/
def outFlags : OpenFlags := { access := .writeOnly, creat := true, trunc := true }

/-- A path as a transfer to it finds it. -/
def localFile (fs : FileSystem) (path : Path) : LocalFile where
  path := String.ofList (path.text.map fun byte ↦ Char.ofNat byte.toNat)
  content :=
    match fs.lookup true path with
    | .error _ => none
    | .ok loc =>
      match fs.tree.get loc with
      | some (.file ino) => some (fs.inode ino).data
      | _ => some []
  permissions :=
    match fs.stat path with
    | .error _ => none
    | .ok done => some (done.value.mode &&& 0o7777)
  canOpen := (fs.openFile path outFlags 0o666).isOk

/-- The file system with other permissions of an object. -/
def setPermissions (fs : FileSystem) (ino : ℕ) (permissions : Option UInt32) : FileSystem :=
  match permissions with
  | none => fs
  | some perm =>
    { fs with
      inodes := fs.inodes.set ino
        { attr := { (fs.inode ino).attr with perm := perm }, data := (fs.inode ino).data } }

/-- The file that a transfer left, if it wrote one. -/
def storeFile (fs : FileSystem) (path : Path) (file : LocalFile) : FileSystem :=
  match file.content with
  | none => fs
  | some data =>
    if file = fs.localFile path then fs
    else match fs.openFile path outFlags 0o666 with
      | .error _ => fs
      | .ok done =>
        (done.fs.setData done.value.ino data).setPermissions done.value.ino
          (if file.permissions = (fs.localFile path).permissions then none else file.permissions)

end FileSystem

/-- An empty disk. -/
def emptyDisk : FileSystem where
  tree := {
    nodes := ⟨[⟨[], .dir 0⟩], by unfold List.NodupKeys; decide⟩
    root := by decide
    parent := by decide
    proper := by decide }
  inodes := [{}]

/-! ### What is added -/

/-- What lies at a location, apart from its inode. -/
inductive LocalObject
  | directory
  | file (content : Bytes)
  | link
  deriving DecidableEq, Repr

def FileSystem.objectAt (fs : FileSystem) (loc : Loc) : Option LocalObject :=
  match fs.tree.get loc with
  | none => none
  | some (.dir _) => some .directory
  | some (.file ino) => some (.file (fs.inode ino).data)
  | some (.symlink _ _) => some .link

/-- The second file system has all objects of the first one, as they were, and new ones
only at or below these names of the directory. -/
structure Grows (dir : Loc) (names : List Name) (before after : FileSystem) : Prop where
  kept : ∀ loc node, before.tree.get loc = some node → after.tree.get loc = some node
  placed : ∀ loc, after.tree.get loc ≠ before.tree.get loc → ∃ name ∈ names, dir ++ [name] <+: loc
  count : before.inodes.length ≤ after.inodes.length
  inode : ∀ ino < before.inodes.length, after.inode ino = before.inode ino
  cwd : after.cwd = before.cwd

namespace Grows

variable {dir : Loc} {names others : List Name} {name : Name} {before middle after : FileSystem}

theorem refl (dir : Loc) (names : List Name) (fs : FileSystem) : Grows dir names fs fs :=
  ⟨fun _ _ h ↦ h, fun _ h ↦ absurd rfl h, le_rfl, fun _ _ ↦ rfl, rfl⟩

theorem mono (h : Grows dir names before after) (hnames : names ⊆ others) :
    Grows dir others before after where
  kept := h.kept
  placed := by
    intro loc hloc
    obtain ⟨name, hname, hunder⟩ := h.placed loc hloc
    exact ⟨name, hnames hname, hunder⟩
  count := h.count
  inode := h.inode
  cwd := h.cwd

theorem trans (hfirst : Grows dir names before middle) (hsecond : Grows dir names middle after) :
    Grows dir names before after where
  kept := fun loc node h ↦ hsecond.kept loc node (hfirst.kept loc node h)
  placed := by
    intro loc hloc
    by_cases hmiddle : middle.tree.get loc = before.tree.get loc
    · exact hsecond.placed loc (hmiddle ▸ hloc)
    · exact hfirst.placed loc hmiddle
  count := hfirst.count.trans hsecond.count
  inode := fun ino hino ↦
    (hsecond.inode ino (hino.trans_le hfirst.count)).trans (hfirst.inode ino hino)
  cwd := hsecond.cwd.trans hfirst.cwd

/-- What is added below an entry is added below its name. -/
theorem below (h : Grows (dir ++ [name]) others before after) : Grows dir [name] before after where
  kept := h.kept
  placed := by
    intro loc hloc
    obtain ⟨other, -, hunder⟩ := h.placed loc hloc
    exact ⟨name, List.mem_singleton_self name, (List.prefix_append _ _).trans hunder⟩
  count := h.count
  inode := h.inode
  cwd := h.cwd

theorem isDir (h : Grows dir names before after) {loc : Loc} (hdir : before.tree.isDir loc = true) :
    after.tree.isDir loc = true := by
  obtain ⟨ino, hget⟩ := FileTree.isDir_iff.mp hdir
  exact FileTree.isDir_iff.mpr ⟨ino, h.kept loc _ hget⟩

/-- A working directory that is gone was gone before. -/
theorem cwd_gone (h : Grows dir names before after)
    (hcwd : after.tree.isDir after.cwd = false) : before.tree.isDir before.cwd = false := by
  by_contra hbefore
  rw [Bool.not_eq_false] at hbefore
  rw [h.cwd] at hcwd
  exact nomatch hcwd.symm.trans (h.isDir hbefore)

/-- Under another name of the directory nothing changes. -/
theorem get_of_notMem (h : Grows dir names before after) (hname : name ∉ names) (below : Loc) :
    after.tree.get (dir ++ name :: below) = before.tree.get (dir ++ name :: below) := by
  by_contra hchanged
  obtain ⟨other, hother, hunder⟩ := h.placed _ hchanged
  have hupper := (List.prefix_append_right_inj dir).mp hunder
  rw [List.cons_prefix_cons] at hupper
  exact hname (hupper.1 ▸ hother)

/-- Under another name an object of an old inode is what it was. -/
theorem objectAt_of_notMem (h : Grows dir names before after) (hname : name ∉ names) (below : Loc)
    (hold : ∀ ino, before.tree.get (dir ++ name :: below) = some (.file ino) →
      ino < before.inodes.length) :
    after.objectAt (dir ++ name :: below) = before.objectAt (dir ++ name :: below) := by
  unfold FileSystem.objectAt
  rw [h.get_of_notMem hname below]
  rcases hget : before.tree.get (dir ++ name :: below) with _ | (ino | ino | ⟨target, attr⟩)
  · rfl
  · rfl
  · simp only [h.inode ino (hold ino hget)]
  · rfl

end Grows

/-- A walk that ends at an object ends there in a tree with more objects, too. -/
theorem walk_found_mono {before after : FileTree}
    (hkept : ∀ loc node, before.get loc = some node → after.get loc = some node) {follow : Bool}
    {links : ℕ} {cur loc : Loc} {comps : List Name}
    (h : walk before follow links cur comps = .found loc) :
    walk after follow links cur comps = .found loc := by
  induction links, cur, comps using walk_induction before follow with
  | nil links cur => rwa [walk_nil] at h ⊢
  | idle links cur comp rest hidle ih =>
    rw [walk_idle hidle] at h ⊢
    exact ih h
  | up links cur rest ih =>
    rw [walk_dotdot] at h ⊢
    exact ih h
  | absent links cur comp rest hentry hget =>
    rw [walk_absent hentry hget] at h
    exact nomatch h
  | dir links cur comp rest ino hentry hget ih =>
    rw [walk_dir hentry hget] at h
    rw [walk_dir hentry (hkept _ _ hget)]
    exact ih h
  | file links cur comp rest ino hentry hget =>
    rw [walk_file hentry hget] at h
    rw [walk_file hentry (hkept _ _ hget)]
    exact h
  | kept links cur comp target attr hentry hget hfollow =>
    rw [hfollow] at h ⊢
    rw [walk_link_kept hentry hget] at h
    rw [walk_link_kept hentry (hkept _ _ hget)]
    exact h
  | exhausted cur comp rest target attr hentry hget hgo =>
    rw [walk_link_exhausted hentry hget hgo] at h
    exact nomatch h
  | link links cur comp rest target attr hentry hget hgo ih =>
    rw [walk_link hentry hget hgo] at h
    rw [walk_link hentry (hkept _ _ hget) hgo]
    exact ih h

/-- A path that leads somewhere leads there when objects are added. -/
theorem Grows.resolve {dir loc : Loc} {names : List Name} {before after : FileSystem}
    (h : Grows dir names before after) {follow : Bool} {path : Path}
    (hfound : before.resolve follow path = .found loc) :
    after.resolve follow path = .found loc := by
  have hstarts := starts_of_found hfound
  have hstarts' : ¬ (path.absolute = false ∧
      (path.comps = [] ∨ after.tree.isDir after.cwd = false)) := by
    rintro ⟨hrelative, hempty | hcwd⟩
    · exact hstarts ⟨hrelative, Or.inl hempty⟩
    · exact hstarts ⟨hrelative, Or.inr (h.cwd_gone hcwd)⟩
  rw [FileSystem.resolve, if_neg hstarts] at hfound
  rw [FileSystem.resolve, if_neg hstarts', h.cwd]
  exact walk_found_mono h.kept hfound

/-! ### Paths to directories -/

/-- The components lead to a directory. -/
structure Leads (fs : FileSystem) (absolute : Bool) (comps : List Name) (dir : Loc) : Prop where
  starts : ¬ (absolute = false ∧ fs.tree.isDir fs.cwd = false)
  found : walk fs.tree true maxSymlinks (if absolute then [] else fs.cwd) comps = .found dir
  isDir : fs.tree.isDir dir = true

namespace Leads

variable {fs after : FileSystem} {absolute : Bool} {comps : List Name} {dir : Loc} {name : Name}

theorem isDir_start (h : Leads fs absolute comps dir) :
    fs.tree.isDir (if absolute then [] else fs.cwd) = true := by
  split_ifs with habsolute
  · exact fs.tree.isDir_nil
  · by_contra hcwd
    exact h.starts ⟨by simpa using habsolute, by simpa using hcwd⟩

/-- A path that goes on from there. -/
theorem resolve_append (h : Leads fs absolute comps dir) (follow : Bool) {second : List Name}
    (hsecond : second ≠ []) :
    ∃ left, fs.resolve follow ⟨absolute, comps ++ second⟩ =
      walk fs.tree follow left dir second := by
  have hcontinues := walk_append follow maxSymlinks comps hsecond h.isDir_start
  rw [h.found, Walk.Continues, if_pos h.isDir] at hcontinues
  obtain ⟨left, -, hwalk⟩ := hcontinues
  have hstarts : ¬ (absolute = false ∧ (comps ++ second = [] ∨ fs.tree.isDir fs.cwd = false)) := by
    rintro ⟨hrelative, hempty | hcwd⟩
    · exact hsecond (List.append_eq_nil_iff.mp hempty).2
    · exact h.starts ⟨hrelative, hcwd⟩
  exact ⟨left, by rw [FileSystem.resolve, if_neg hstarts]; exact hwalk⟩

theorem resolve (h : Leads fs absolute comps dir) (hne : ¬ (absolute = false ∧ comps = [])) :
    fs.resolve true ⟨absolute, comps⟩ = .found dir := by
  have hstarts : ¬ (absolute = false ∧ (comps = [] ∨ fs.tree.isDir fs.cwd = false)) := by
    rintro ⟨hrelative, hempty | hcwd⟩
    · exact hne ⟨hrelative, hempty⟩
    · exact h.starts ⟨hrelative, hcwd⟩
  rw [FileSystem.resolve, if_neg hstarts]
  exact h.found

/-- A trailing separator makes no difference. -/
theorem resolve_path {path : Path} (h : Leads fs path.absolute path.entry.comps dir)
    (hne : ¬ (path.absolute = false ∧ path.entry.comps = [])) :
    fs.resolve true path = .found dir := by
  by_cases hslash : path.comps.getLast? = some []
  · obtain ⟨names, hnames⟩ := List.getLast?_eq_some_iff.mp hslash
    have hentry : path.entry.comps = names := by
      rw [Path.entry, if_pos hslash, hnames, List.dropLast_concat]
    obtain ⟨left, hresolve⟩ := h.resolve_append true (List.cons_ne_nil [] [])
    have hpath : path = ⟨path.absolute, path.entry.comps ++ [[]]⟩ := by
      rw [hentry, ← hnames]
    rw [hpath, hresolve, walk_idle (Or.inl rfl), walk_nil]
  · have hentry : path.entry = path := if_neg hslash
    rw [hentry] at h hne
    exact h.resolve hne

theorem resolve_free (h : Leads fs absolute comps dir) (hname : ProperName name)
    (hfree : fs.tree.get (dir ++ [name]) = none) (follow : Bool) :
    fs.resolve follow ⟨absolute, comps ++ [name]⟩ = .missing dir name [] := by
  obtain ⟨left, hresolve⟩ := h.resolve_append follow (List.cons_ne_nil name [])
  rw [hresolve, walk_absent (isEntryName_of_proper hname) hfree]

theorem child (h : Leads fs absolute comps dir) (hname : ProperName name) {ino : ℕ}
    (hget : fs.tree.get (dir ++ [name]) = some (.dir ino)) :
    Leads fs absolute (comps ++ [name]) (dir ++ [name]) where
  starts := h.starts
  found := by
    have hcontinues := walk_append true maxSymlinks comps (List.cons_ne_nil name []) h.isDir_start
    rw [h.found, Walk.Continues, if_pos h.isDir] at hcontinues
    obtain ⟨left, -, hwalk⟩ := hcontinues
    rw [hwalk, walk_dir (isEntryName_of_proper hname) hget, walk_nil]
  isDir := FileTree.isDir_iff.mpr ⟨ino, hget⟩

theorem grows {other : Loc} {names : List Name} (h : Leads fs absolute comps dir)
    (hgrows : Grows other names fs after) : Leads after absolute comps dir where
  starts := fun hnowhere ↦ h.starts ⟨hnowhere.1, hgrows.cwd_gone hnowhere.2⟩
  found := by
    rw [hgrows.cwd]
    exact walk_found_mono hgrows.kept h.found
  isDir := hgrows.isDir h.isDir

end Leads

/-! ### The calls -/

section Calls

variable {fs : FileSystem} {absolute : Bool} {comps : List Name} {dir : Loc} {name : Name}

/-- A new object with a new inode, and nothing else. -/
structure Adds (dir : Loc) (name : Name) (node : ℕ → Node) (before after : FileSystem) : Prop where
  get : ∀ loc, after.tree.get loc =
    if loc = dir ++ [name] then some (node before.inodes.length) else before.tree.get loc
  grows : Grows dir [name] before after
  count : before.inodes.length < after.inodes.length

theorem create_free {node : ℕ → Node} {mode : UInt32} (hdir : fs.tree.isDir dir = true)
    (hname : ProperName name) (hfree : fs.tree.get (dir ++ [name]) = none) :
    ∃ done, fs.create dir name node mode = .ok done ∧ done.value = fs.inodes.length ∧
      Adds dir name node fs done.fs := by
  have hput : fs.tree.putAt dir name (node fs.inodes.length) =
      some (fs.tree.place dir name (node fs.inodes.length) hdir hfree hname) :=
    dif_pos ⟨hdir, hfree, hname⟩
  have hget := FileTree.get_of_putAt hput
  refine ⟨_, by rw [FileSystem.create, hput], rfl, hget, ⟨?_, ?_, ?_, ?_, rfl⟩, ?_⟩
  · intro loc other hother
    rw [hget, if_neg]
    · exact hother
    · rintro rfl
      exact nomatch hfree.symm.trans hother
  · intro loc hchanged
    refine ⟨name, List.mem_singleton_self name, ?_⟩
    by_cases hloc : loc = dir ++ [name]
    · rw [hloc]
    · exact absurd ((hget loc).trans (if_neg hloc)) hchanged
  · simp [FileSystem.addInode]
  · intro ino hino
    simp [FileSystem.inode, FileSystem.addInode, List.getElem?_append_left hino]
  · simp [FileSystem.addInode]

theorem entry_concat (hname : ProperName name) :
    (⟨absolute, comps ++ [name]⟩ : Path).entry = ⟨absolute, comps ++ [name]⟩ := by
  rw [Path.entry, if_neg]
  rw [List.getLast?_concat]
  exact fun hnil ↦ hname.1 (Option.some.inj hnil)

theorem mkdir_free {mode : UInt32} (h : Leads fs absolute comps dir) (hname : ProperName name)
    (hfree : fs.tree.get (dir ++ [name]) = none) :
    ∃ done, fs.mkdir ⟨absolute, comps ++ [name]⟩ mode = .ok done ∧
      Adds dir name .dir fs done.fs := by
  obtain ⟨done, hcreate, -, hadds⟩ := create_free h.isDir hname hfree
  refine ⟨⟨(), done.fs, done.touched⟩, ?_, hadds⟩
  rw [FileSystem.mkdir, entry_concat hname,
    FileSystem.lookupFree_eq_ok_iff.mpr (h.resolve_free hname hfree false)]
  dsimp only
  rw [hcreate]

/-- Nothing lies below a free name, and nothing below a new object. -/
theorem Adds.get_below {node : ℕ → Node} {after : FileSystem} (h : Adds dir name node fs after)
    (hfree : fs.tree.get (dir ++ [name]) = none) {below : Loc} (hne : below ≠ []) :
    after.tree.get (dir ++ [name] ++ below) = none := by
  rw [h.get, if_neg (by simpa using hne)]
  exact FileTree.get_append_eq_none (by rw [FileTree.isDir, hfree]; rfl) hne

/-- A new file is the object under its name. -/
theorem Adds.objectAt_file {after : FileSystem} (h : Adds dir name .file fs after)
    (hfree : fs.tree.get (dir ++ [name]) = none) (below : Loc) :
    after.objectAt (dir ++ name :: below) =
      if below = [] then some (.file (after.inode fs.inodes.length).data) else none := by
  split_ifs with hbelow
  · rw [hbelow, FileSystem.objectAt, h.get, if_pos rfl]
  · rw [List.append_cons, FileSystem.objectAt, h.get_below hfree hbelow]

theorem Adds.inode_lt {after : FileSystem} (h : Adds dir name .file fs after)
    (hfree : fs.tree.get (dir ++ [name]) = none) {below : Loc} {ino : ℕ}
    (hget : after.tree.get (dir ++ name :: below) = some (.file ino)) :
    ino < after.inodes.length := by
  by_cases hbelow : below = []
  · rw [hbelow, h.get, if_pos rfl] at hget
    rw [← Node.file.inj (Option.some.inj hget)]
    exact h.count
  · rw [List.append_cons, h.get_below hfree hbelow] at hget
    exact nomatch hget

/-- Missing directories are made down to the last one, which is empty. -/
theorem createMissing_free (rest : List Name) :
    ∀ {fs : FileSystem} {comps : List Name} {dir : Loc}, Leads fs absolute comps dir →
      (∀ name ∈ rest, ProperName name) →
      (∀ name ∈ rest.head?, fs.tree.get (dir ++ [name]) = none) →
      ∃ after, FileSystem.createMissing absolute comps rest fs = (.ok (), after) ∧
        Leads after absolute (comps ++ rest) (dir ++ rest) ∧ Grows dir (rest.take 1) fs after ∧
        (rest ≠ [] → ∀ below, below ≠ [] → after.tree.get (dir ++ rest ++ below) = none) := by
  induction rest with
  | nil =>
    intro fs comps dir h _ _
    refine ⟨fs, rfl, ?_, Grows.refl _ _ _, fun hne ↦ absurd rfl hne⟩
    rwa [List.append_nil, List.append_nil]
  | cons name rest ih =>
    intro fs comps dir h hproper hfree
    have hname := hproper name List.mem_cons_self
    have hnone := hfree name rfl
    obtain ⟨done, hmkdir, hadds⟩ : ∃ done, fs.mkdir ⟨absolute, comps ++ [name]⟩ 0o777 = .ok done ∧
        Adds dir name .dir fs done.fs := mkdir_free h hname hnone
    have hstatus : fs.statusExists ⟨absolute, comps ++ [name]⟩ = .ok false := by
      rw [FileSystem.statusExists, h.resolve_free hname hnone]
    have hleads := (h.grows hadds.grows).child hname ((hadds.get _).trans (if_pos rfl))
    obtain ⟨after, hrun, hafter, hgrows, hempty⟩ := ih hleads
      (fun other hother ↦ hproper other (List.mem_cons_of_mem _ hother))
      (fun other _ ↦ hadds.get_below hnone (List.cons_ne_nil other []))
    refine ⟨after, ?_, ?_, hadds.grows.trans hgrows.below, fun _ below hbelow ↦ ?_⟩
    · rw [FileSystem.createMissing, hstatus]
      dsimp only
      rw [hmkdir]
      exact hrun
    · rwa [List.append_cons comps, List.append_cons dir]
    · by_cases hrest : rest = []
      · subst hrest
        obtain ⟨-, rfl⟩ := Prod.mk.inj hrun
        exact hadds.get_below hnone hbelow
      · rw [List.append_cons dir]
        exact hempty hrest below hbelow

/-- Directories that exist are passed. -/
theorem createMissing_append (first : List Name) {found : List Name} (rest : List Name)
    (h : Leads fs absolute (found ++ first) dir) :
    FileSystem.createMissing absolute found (first ++ rest) fs =
      FileSystem.createMissing absolute (found ++ first) rest fs := by
  induction first generalizing found with
  | nil => rw [List.nil_append, List.append_nil]
  | cons comp first ih =>
    rw [List.append_cons found comp first] at h ⊢
    obtain ⟨upper, hupper⟩ := found_of_append (by simp) (h.resolve (by simp))
    rw [List.cons_append, FileSystem.createMissing, statusExists_of_found hupper]
    exact ih h

/-- The path stands for an empty directory, or for one that is missing: `upper` leads to a
directory, and the first of the other names is free in it. -/
structure Vacant (fs : FileSystem) (path : Path) (upper rest : List Name) (dir : Loc) : Prop where
  nonempty : ¬ (path.absolute = false ∧ path.entry.comps = [])
  comps : path.entry.comps = upper ++ rest
  leads : Leads fs path.absolute upper dir
  proper : ∀ name ∈ rest, ProperName name
  free : ∀ name, (∀ first ∈ rest.head?, name = first) → fs.tree.get (dir ++ [name]) = none

theorem entry_absolute (path : Path) : path.entry.absolute = path.absolute := by
  unfold Path.entry
  split_ifs <;> rfl

/-- A path with a missing directory leads nowhere. -/
theorem Vacant.lookup {path : Path} {upper rest : List Name} (h : Vacant fs path upper rest dir)
    (hrest : rest ≠ []) : fs.lookup true path = .error .enoent := by
  obtain ⟨tail, htail⟩ : ∃ tail, path.comps = upper ++ (rest ++ tail) := by
    rcases entry_comps_cases path with hcomps | hcomps
    · exact ⟨[], by rw [hcomps, h.comps, List.append_nil]⟩
    · exact ⟨[[]], by rw [hcomps, h.comps, List.append_assoc]⟩
  obtain ⟨name, others, rfl⟩ := List.exists_cons_of_ne_nil hrest
  have hname := isEntryName_of_proper (h.proper name List.mem_cons_self)
  have hfree := h.free name fun first hfirst ↦ Option.some.inj hfirst
  obtain ⟨left, hresolve⟩ := h.leads.resolve_append true
    (List.cons_ne_nil name (others ++ tail))
  have hpath : fs.resolve true path = .missing dir name (others ++ tail) := by
    rw [List.cons_append] at htail
    rw [← walk_absent hname hfree, ← hresolve, ← htail]
  rw [FileSystem.lookup, hpath]

/-- `create_directories` makes a vacant path an empty directory. -/
theorem Vacant.createDirectories {path : Path} {upper rest : List Name}
    (h : Vacant fs path upper rest dir) :
    ∃ after, fs.createDirectories path = (.ok (), after) ∧
      Leads after path.absolute path.entry.comps (dir ++ rest) ∧ Grows dir (rest.take 1) fs after ∧
      ∀ name, after.tree.get (dir ++ rest ++ [name]) = none := by
  have hne : ¬ (path.absolute = false ∧ path.comps = []) := by
    rintro ⟨hrelative, hempty⟩
    refine h.nonempty ⟨hrelative, ?_⟩
    rcases entry_comps_cases path with hcomps | hcomps
    · rw [← hcomps, hempty]
    · rw [hempty] at hcomps
      exact absurd hcomps.symm (by simp)
  rw [FileSystem.createDirectories, if_neg hne, h.comps]
  by_cases hrest : rest = []
  · subst hrest
    have hleads : Leads fs path.absolute path.entry.comps dir := by
      rw [h.comps, List.append_nil]
      exact h.leads
    rw [FileSystem.lookup_eq_ok_iff.mpr (hleads.resolve_path h.nonempty)]
    dsimp only
    refine ⟨fs, if_pos h.leads.isDir, ?_, Grows.refl _ _ _, fun name ↦ ?_⟩
    · rw [List.append_nil, List.append_nil]
      exact h.leads
    · rw [List.append_nil]
      exact h.free name fun _ hfirst ↦ (nomatch hfirst)
  · obtain ⟨after, hrun, hleads, hgrows, hempty⟩ := createMissing_free rest h.leads h.proper
      fun name hname ↦ h.free name fun first hfirst ↦ Option.mem_unique hname hfirst
    rw [h.lookup hrest]
    refine ⟨after, ?_, hleads, hgrows, fun name ↦ hempty hrest [name] (List.cons_ne_nil name [])⟩
    have hleads' : Leads fs path.absolute ([] ++ upper) dir := h.leads
    have hnotFound : FileSystem.isNotFound .enoent = true := by decide
    dsimp only
    rw [if_pos hnotFound, createMissing_append upper rest hleads', List.nil_append]
    exact hrun

/-- A walk to a free name, which follows a last link or not, ends there. -/
theorem walk_follow_of_missing {tree : FileTree} {links : ℕ} {cur dir : Loc} {comps : List Name}
    (h : walk tree false links cur comps = .missing dir name []) :
    walk tree true links cur comps = .missing dir name [] := by
  induction links, cur, comps using walk_induction tree false with
  | nil links cur =>
    rw [walk_nil] at h
    exact nomatch h
  | idle links cur comp rest hidle ih =>
    rw [walk_idle hidle] at h ⊢
    exact ih h
  | up links cur rest ih =>
    rw [walk_dotdot] at h ⊢
    exact ih h
  | absent links cur comp rest hentry hget =>
    rw [walk_absent hentry hget] at h ⊢
    exact h
  | dir links cur comp rest ino hentry hget ih =>
    rw [walk_dir hentry hget] at h ⊢
    exact ih h
  | file links cur comp rest ino hentry hget =>
    rw [walk_file hentry hget] at h
    split_ifs at h
  | kept links cur comp target attr hentry hget hfollow =>
    rw [walk_link_kept hentry hget] at h
    exact nomatch h
  | exhausted cur comp rest target attr hentry hget hgo =>
    rw [walk_link_exhausted hentry hget hgo] at h
    exact nomatch h
  | link links cur comp rest target attr hentry hget hgo ih =>
    rw [walk_link hentry hget hgo] at h
    rw [walk_link hentry hget (by simp)]
    exact ih h

/-- A walk to a free name ends at the directory that is made there. -/
theorem walk_of_made {before after : FileTree} {links ino : ℕ} {cur dir : Loc} {comps : List Name}
    (hkept : ∀ loc node, before.get loc = some node → after.get loc = some node)
    (hmade : after.get (dir ++ [name]) = some (.dir ino))
    (h : walk before true links cur comps = .missing dir name []) :
    walk after true links cur comps = .found (dir ++ [name]) := by
  induction links, cur, comps using walk_induction before true with
  | nil links cur =>
    rw [walk_nil] at h
    exact nomatch h
  | idle links cur comp rest hidle ih =>
    rw [walk_idle hidle] at h ⊢
    exact ih h
  | up links cur rest ih =>
    rw [walk_dotdot] at h ⊢
    exact ih h
  | absent links cur comp rest hentry hget =>
    rw [walk_absent hentry hget] at h
    obtain ⟨rfl, rfl, rfl⟩ := Walk.missing.inj h
    rw [walk_dir hentry hmade, walk_nil]
  | dir links cur comp rest ino hentry hget ih =>
    rw [walk_dir hentry hget] at h
    rw [walk_dir hentry (hkept _ _ hget)]
    exact ih h
  | file links cur comp rest ino hentry hget =>
    rw [walk_file hentry hget] at h
    split_ifs at h
  | kept links cur comp target attr hentry hget hfollow =>
    exact nomatch hfollow
  | exhausted cur comp rest target attr hentry hget hgo =>
    rw [walk_link_exhausted hentry hget hgo] at h
    exact nomatch h
  | link links cur comp rest target attr hentry hget hgo ih =>
    rw [walk_link hentry hget hgo] at h
    rw [walk_link hentry (hkept _ _ hget) hgo]
    exact ih h

theorem resolve_follow_of_missing {path : Path} (h : fs.resolve false path = .missing dir name []) :
    fs.resolve true path = .missing dir name [] := by
  unfold FileSystem.resolve at h ⊢
  split_ifs at h ⊢ with hnowhere habsolute
  · exact walk_follow_of_missing h
  · exact walk_follow_of_missing h

/-- What `mkdir` adds, and where. -/
theorem adds_of_mkdir {path : Path} {mode : UInt32} {done : Done Unit}
    (h : fs.mkdir path mode = .ok done) :
    ∃ dir name, fs.resolve false path.entry = .missing dir name [] ∧
      Adds dir name .dir fs done.fs := by
  unfold FileSystem.mkdir at h
  split at h
  · cases h
  · next dir name hlookup =>
    split at h
    · cases h
    · next made hcreate =>
      obtain ⟨hdir, hfree, hname⟩ : fs.tree.isDir dir = true ∧
          fs.tree.get (dir ++ [name]) = none ∧ ProperName name := by
        by_contra hput
        rw [FileSystem.create, FileTree.putAt, dif_neg hput] at hcreate
        cases hcreate
      obtain ⟨other, hother, -, hadds⟩ : ∃ other, fs.create dir name .dir mode = .ok other ∧
          other.value = fs.inodes.length ∧ Adds dir name .dir fs other.fs :=
        create_free hdir hname hfree
      obtain rfl := Except.ok.inj (hcreate.symm.trans hother)
      refine ⟨dir, name, FileSystem.lookupFree_eq_ok_iff.mp hlookup, ?_⟩
      rw [← Except.ok.inj h]
      exact hadds

/-- What `mkdir` makes is a directory that the path leads to. -/
theorem resolve_of_mkdir {path : Path} {mode : UInt32} {done : Done Unit}
    (h : fs.mkdir path mode = .ok done) :
    ∃ dir name, Adds dir name .dir fs done.fs ∧
      done.fs.resolve true path = .found (dir ++ [name]) := by
  obtain ⟨dir, name, hfree, hadds⟩ := adds_of_mkdir h
  have hmissing := resolve_follow_of_missing hfree
  have hmade : done.fs.tree.get (dir ++ [name]) = some (.dir fs.inodes.length) :=
    (hadds.get _).trans (if_pos rfl)
  have hstarts : ¬ (path.entry.absolute = false ∧
      (path.entry.comps = [] ∨ fs.tree.isDir fs.cwd = false)) := by
    intro hnowhere
    rw [FileSystem.resolve, if_pos hnowhere] at hmissing
    cases hmissing
  rw [FileSystem.resolve, if_neg hstarts] at hmissing
  rw [entry_absolute] at hmissing hstarts
  have hleads : Leads done.fs path.absolute path.entry.comps (dir ++ [name]) := by
    refine ⟨?_, ?_, FileTree.isDir_iff.mpr ⟨_, hmade⟩⟩
    · exact fun hnowhere ↦ hstarts ⟨hnowhere.1, Or.inr (hadds.grows.cwd_gone hnowhere.2)⟩
    · rw [hadds.grows.cwd]
      exact walk_of_made hadds.grows.kept hmade hmissing
  have hnamed : ¬ (path.absolute = false ∧ path.entry.comps = []) :=
    fun hnowhere ↦ hstarts ⟨hnowhere.1, Or.inl hnowhere.2⟩
  exact ⟨dir, name, hadds, hleads.resolve_path hnamed⟩

/-- `mkdir` changes nothing but the tree and the table of inodes. -/
theorem others_of_mkdir {path : Path} {mode : UInt32} {done : Done Unit}
    (h : fs.mkdir path mode = .ok done) :
    done.fs = { fs with tree := done.fs.tree, inodes := done.fs.inodes } := by
  unfold FileSystem.mkdir at h
  split at h
  · exact nomatch h
  · split at h
    · exact nomatch h
    · next made hcreate =>
      unfold FileSystem.create at hcreate
      split at hcreate
      · exact nomatch hcreate
      · rw [← Except.ok.inj h, ← Except.ok.inj hcreate]
        rfl

/-- `mkdir` fails if the path leads somewhere. -/
theorem mkdir_of_found {path : Path} {loc : Loc} (h : fs.resolve true path = .found loc)
    (mode : UInt32) : ∃ error, fs.mkdir path mode = .error error := by
  cases hmkdir : fs.mkdir path mode with
  | error error => exact ⟨error, rfl⟩
  | ok done =>
    obtain ⟨dir, name, hfree, -⟩ := adds_of_mkdir hmkdir
    have hmissing := resolve_follow_of_missing hfree
    have hne : path.entry.comps ≠ [] := by
      intro hempty
      unfold FileSystem.resolve at hmissing
      rw [hempty] at hmissing
      split_ifs at hmissing <;> rw [walk_nil] at hmissing <;> exact nomatch hmissing
    obtain ⟨upper, hupper⟩ : ∃ upper, fs.resolve true path.entry = .found upper := by
      have hpath : fs.resolve true ⟨path.entry.absolute, path.comps⟩ = .found loc := by
        rw [entry_absolute]
        exact h
      rcases entry_comps_cases path with hcomps | hcomps
      · rw [hcomps] at hpath
        exact ⟨loc, hpath⟩
      · rw [hcomps] at hpath
        exact found_of_append hne hpath
    exact nomatch hupper.symm.trans hmissing

theorem Adds.setInode {node : ℕ → Node} {after : FileSystem} (h : Adds dir name node fs after)
    (inode : Inode) :
    Adds dir name node fs { after with inodes := after.inodes.set fs.inodes.length inode } where
  get := h.get
  grows := by
    refine ⟨h.grows.kept, h.grows.placed, ?_, fun ino hino ↦ ?_, h.grows.cwd⟩
    · rw [List.length_set]
      exact h.grows.count
    · rw [← h.grows.inode ino hino]
      simp [FileSystem.inode, List.getElem?_set_ne (Nat.ne_of_gt hino)]
  count := by
    rw [List.length_set]
    exact h.count

theorem localFile_free (h : Leads fs absolute comps dir) (hname : ProperName name)
    (hfree : fs.tree.get (dir ++ [name]) = none) :
    (fs.localFile ⟨absolute, comps ++ [name]⟩).content = none ∧
      (fs.localFile ⟨absolute, comps ++ [name]⟩).permissions = none ∧
      (fs.localFile ⟨absolute, comps ++ [name]⟩).canOpen = true ∧
      (fs.localFile ⟨absolute, comps ++ [name]⟩).ioLimit = none := by
  have hresolve := h.resolve_free hname hfree true
  have hlookup : fs.lookup true ⟨absolute, comps ++ [name]⟩ = .error .enoent := by
    rw [FileSystem.lookup, hresolve]
  obtain ⟨done, hcreate, -⟩ : ∃ done, fs.create dir name .file 0o666 = .ok done ∧
      done.value = fs.inodes.length ∧ Adds dir name .file fs done.fs :=
    create_free h.isDir hname hfree
  refine ⟨?_, ?_, ?_, rfl⟩
  · simp only [FileSystem.localFile, hlookup]
  · simp only [FileSystem.localFile, FileSystem.stat, FileSystem.statPath, hlookup]
  · simp [FileSystem.localFile, FileSystem.openFile, FileSystem.outFlags, hresolve, hcreate,
      Except.isOk, Except.toBool]

/-- A file that is written under a free name. -/
theorem storeFile_free (h : Leads fs absolute comps dir) (hname : ProperName name)
    (hfree : fs.tree.get (dir ++ [name]) = none) {file : LocalFile} {data : Bytes}
    (hdata : file.content = some data) :
    Adds dir name .file fs (fs.storeFile ⟨absolute, comps ++ [name]⟩ file) ∧
      ((fs.storeFile ⟨absolute, comps ++ [name]⟩ file).inode fs.inodes.length).data = data := by
  obtain ⟨hcontent, hpermissions, -⟩ := localFile_free h hname hfree
  have hne : file ≠ fs.localFile ⟨absolute, comps ++ [name]⟩ := by
    rintro rfl
    exact nomatch hdata.symm.trans hcontent
  obtain ⟨done, hcreate, hino, hadds⟩ : ∃ done, fs.create dir name .file 0o666 = .ok done ∧
      done.value = fs.inodes.length ∧ Adds dir name .file fs done.fs :=
    create_free h.isDir hname hfree
  have hopen : fs.openFile ⟨absolute, comps ++ [name]⟩ FileSystem.outFlags 0o666 =
      .ok ⟨⟨dir ++ [name], fs.inodes.length, false, FileSystem.outFlags⟩, done.fs,
        done.touched⟩ := by
    have hresolve := h.resolve_free hname hfree true
    simp [FileSystem.openFile, FileSystem.outFlags, hresolve, hcreate, hino]
  have hstore : fs.storeFile ⟨absolute, comps ++ [name]⟩ file =
      (done.fs.setData fs.inodes.length data).setPermissions fs.inodes.length
        (if file.permissions = none then none else file.permissions) := by
    rw [FileSystem.storeFile, hdata]
    dsimp only
    rw [if_neg hne, hopen, hpermissions]
  have hset := hadds.setInode { attr := (done.fs.inode fs.inodes.length).attr, data := data }
  rw [hstore]
  unfold FileSystem.setPermissions FileSystem.setData
  split
  · refine ⟨hset, ?_⟩
    simp [FileSystem.inode, hadds.count]
  · next perm _ =>
    refine ⟨hset.setInode _, ?_⟩
    simp [FileSystem.inode, hadds.count]

end Calls

end LibSshpp.Posix
