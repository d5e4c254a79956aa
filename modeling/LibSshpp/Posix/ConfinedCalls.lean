import LibSshpp.Posix.Confinement
import LibSshpp.Posix.CanonicalPath

/-!
The file system calls under a confined root: on a path that leads down from the root
without `..`, each call touches objects inside the root only, and what it changes is an
edit below the root. For the calls that fill a name (`mkdir`, `symlink`, `rename`) the
root stays confined if the links they bring in place do.
-/

set_option autoImplicit false
set_option relaxedAutoImplicit false

namespace LibSshpp.Posix

/-- A path that leads down from `root`. -/
structure Path.Under (root : Loc) (path : Path) : Prop where
  absolute : path.absolute = true
  inside : root <+: path.comps
  noClimb : dotdot ∉ path.comps

/-- The root is a directory and the links below it resolve inside. -/
structure Confined (root : Loc) (tree : FileTree) : Prop where
  isDir : tree.isDir root = true
  links : LinksInside root tree

/-- The locations that are filled between two trees. -/
def NewlyFilled (before after : FileTree) (loc : Loc) : Prop :=
  before.get loc = none ∧ after.get loc ≠ none

/-- The links that a change brings to free names, or that were waiting for one of these
with `..` still to come, resolve inside the root afterwards. -/
def FillsInside (root : Loc) (before after : FileTree) : Prop :=
  PlacesInside root before after (NewlyFilled before after)

section Confined

variable {root : Loc} {tree after : FileTree}

/-- An edit below the root keeps it confined. -/
theorem Confined.edit (h : Confined root tree) {placed : Loc → Prop}
    (hedit : Edit root tree after placed) (hplaces : PlacesInside root tree after placed) :
    Confined root after := by
  refine ⟨?_, h.links.edit hedit hplaces⟩
  have hsame : after.get root = tree.get root := by
    by_contra hchanged
    exact (hedit.below root hchanged).2 rfl
  rw [FileTree.isDir, hsame]
  exact h.isDir

theorem placesInside_nothing (root : Loc) (before after : FileTree) :
    PlacesInside root before after fun _ ↦ False := by
  rintro _ _ _ _ _ _ (hplaced | ⟨_, _, _, _, hplaced, _⟩)
  · exact hplaced.elim
  · exact hplaced.elim

/-- Nothing but the removal of an object below the root. -/
theorem edit_removeLeaf {loc : Loc} (hbelow : Below root loc)
    (h : tree.removeLeaf loc = some after) : Edit root tree after fun _ ↦ False := by
  have hget := FileTree.get_of_removeLeaf h
  have hloc : ∀ other, after.get other ≠ tree.get other → other = loc := by
    intro other hchanged
    by_contra hne
    exact hchanged (by rw [hget, if_neg hne])
  refine ⟨?_, ?_, fun _ hfalse ↦ hfalse.elim⟩
  · intro other hchanged
    rw [hloc other hchanged]
    exact hbelow
  · intro other hchanged
    rw [hloc other hchanged, hget, if_pos rfl]
    exact Or.inl rfl

theorem changed_of_putAt {dir : Loc} {name : Name} {node : Node}
    (h : tree.putAt dir name node = some after) {loc : Loc}
    (hchanged : after.get loc ≠ tree.get loc) : loc = dir ++ [name] := by
  by_contra hne
  exact hchanged (by rw [FileTree.get_of_putAt h, if_neg hne])

/-- A new file in a directory inside the root. -/
theorem edit_putFile {dir : Loc} {name : Name} {ino : ℕ} (hdir : root <+: dir)
    (h : tree.putAt dir name (.file ino) = some after) : Edit root tree after fun _ ↦ False := by
  refine ⟨?_, ?_, fun _ hfalse ↦ hfalse.elim⟩
  · intro loc hchanged
    rw [changed_of_putAt h hchanged]
    exact below_concat hdir name
  · intro loc hchanged
    rw [changed_of_putAt h hchanged, FileTree.get_of_putAt h, if_pos rfl]
    exact Or.inr (Or.inl ⟨ino, rfl⟩)

/-- A new object of any kind in a directory inside the root. -/
theorem edit_putAt {dir : Loc} {name : Name} {node : Node} (hdir : root <+: dir)
    (h : tree.putAt dir name node = some after) :
    Edit root tree after (NewlyFilled tree after) := by
  refine ⟨?_, ?_, fun _ hplaced ↦ hplaced.1⟩
  · intro loc hchanged
    rw [changed_of_putAt h hchanged]
    exact below_concat hdir name
  · intro loc hchanged
    have hloc := changed_of_putAt h hchanged
    refine Or.inr (Or.inr ⟨?_, ?_⟩)
    · rw [hloc]
      exact FileTree.free_of_putAt h
    · rw [FileTree.get_of_putAt h, if_pos hloc]
      exact Option.some_ne_none node

/-- A subtree below the root moves to a free name inside the root. -/
theorem edit_moveTo {source dir : Loc} {name : Name} (hsource : Below root source)
    (hdir : root <+: dir) (h : tree.moveTo source dir name = some after) :
    Edit root tree after (NewlyFilled tree after) := by
  have hmovable := FileTree.movable_of_moveTo h
  have hget := FileTree.get_of_moveTo h
  have htarget : ∀ below, tree.get (dir ++ [name] ++ below) = none := hmovable.get_below
  have hcases : ∀ loc, after.get loc ≠ tree.get loc → dir ++ [name] <+: loc ∨
      source <+: loc ∧ after.get loc = none := by
    intro loc hchanged
    by_cases hnew : dir ++ [name] <+: loc
    · exact Or.inl hnew
    · by_cases hold : source <+: loc
      · exact Or.inr ⟨hold, by rw [hget, if_neg hnew, if_pos hold]⟩
      · exact absurd (by rw [hget, if_neg hnew, if_neg hold]) hchanged
  have hstrict : ∀ {upper loc : Loc}, Below root upper → upper <+: loc → Below root loc := by
    intro upper loc hupper hunder
    refine ⟨hupper.1.trans hunder, fun heq ↦ hupper.2 ?_⟩
    rw [heq] at hunder
    exact List.IsPrefix.eq_of_length hunder (le_antisymm hunder.length_le hupper.1.length_le)
  refine ⟨?_, ?_, fun _ hplaced ↦ hplaced.1⟩
  · intro loc hchanged
    rcases hcases loc hchanged with hnew | ⟨hold, -⟩
    · exact hstrict (below_concat hdir name) hnew
    · exact hstrict hsource hold
  · intro loc hchanged
    rcases hcases loc hchanged with ⟨below, rfl⟩ | ⟨-, hnone⟩
    · rw [htarget] at hchanged
      exact Or.inr (Or.inr ⟨htarget below, hchanged⟩)
    · exact Or.inl hnone

end Confined

/-! ### Paths under the root -/

section Under

variable {root : Loc} {path : Path}

theorem Path.Under.entry (h : path.Under root) (hproper : [] ∉ root) : path.entry.Under root := by
  unfold Path.entry
  split_ifs with hslash
  · refine ⟨h.absolute, ?_, fun hup ↦ h.noClimb (List.mem_of_mem_dropLast hup)⟩
    obtain ⟨upper, hupper⟩ := List.getLast?_eq_some_iff.mp hslash
    have hinside := h.inside
    simp only [hupper, List.dropLast_concat] at hinside ⊢
    rcases List.prefix_concat_iff.mp hinside with heq | hunder
    · exact absurd (heq ▸ List.mem_append_right _ List.mem_cons_self) hproper
    · exact hunder
  · exact h

variable {fs : FileSystem}

theorem Confined.notMem_nil (h : Confined root fs.tree) : [] ∉ root :=
  fun hmem ↦ (FileTree.properName_of_mem (FileTree.get_ne_none_of_isDir h.isDir) hmem).1 rfl

/-- Such a path is walked to the inside. -/
theorem Confined.resolve_inside (h : Confined root fs.tree) (hpath : path.Under root)
    (follow : Bool) : (fs.resolve follow path).Inside root := by
  obtain ⟨absolute, comps⟩ := path
  obtain rfl : absolute = true := hpath.absolute
  obtain ⟨below, rfl⟩ := hpath.inside
  have hdir : fs.tree.isDir ([] ++ root) = true := h.isDir
  rw [FileSystem.resolve_absolute, walk_physical root hdir below, List.nil_append]
  refine h.links.walk_inside le_rfl (List.prefix_refl root) h.isDir fun hup ↦ ?_
  exact hpath.noClimb (List.mem_append_right _ hup)

theorem Confined.lookup_inside (h : Confined root fs.tree) (hpath : path.Under root)
    {follow : Bool} {loc : Loc} (hlookup : fs.lookup follow path = .ok loc) : root <+: loc := by
  have hinside := h.resolve_inside hpath follow
  rw [FileSystem.lookup_eq_ok_iff.mp hlookup] at hinside
  exact hinside

theorem Confined.lookupFree_inside (h : Confined root fs.tree) (hpath : path.Under root)
    {dir : Loc} {name : Name} (hlookup : fs.lookupFree path = .ok (dir, name)) : root <+: dir := by
  have hinside := h.resolve_inside hpath false
  rw [FileSystem.lookupFree_eq_ok_iff.mp hlookup] at hinside
  exact hinside rfl

end Under

/-- What `readdir` can return. -/
def IsListed (name : Name) : Prop := name = dot ∨ name = dotdot ∨ ProperName name

theorem IsListed.ofBytes {name : Name} (h : IsListed name) :
    Path.ofBytes name = ⟨false, [name]⟩ := by
  rcases h with rfl | rfl | hproper
  · rfl
  · rfl
  · exact Path.ofBytes_name hproper.1 hproper.2.2.2

/-- The path leads to `root` whatever lies below `root`. -/
def LeadsTo (fs : FileSystem) (path : Path) (root : Loc) : Prop :=
  ∀ tree : FileTree, (∀ loc, ¬ Below root loc → tree.get loc = fs.tree.get loc) →
    ({ fs with tree := tree } : FileSystem).resolve true path = .found root

theorem LeadsTo.found {fs : FileSystem} {path : Path} {root : Loc} (h : LeadsTo fs path root) :
    fs.resolve true path = .found root :=
  h fs.tree fun _ _ ↦ rfl

/-- The physical path of a directory leads to it. -/
theorem resolve_physical {fs : FileSystem} {dir : Loc} (h : fs.tree.isDir dir = true)
    (follow : Bool) : fs.resolve follow ⟨true, dir⟩ = .found dir := by
  have hdir : fs.tree.isDir ([] ++ dir) = true := h
  have hphysical : walk fs.tree follow maxSymlinks [] (dir ++ []) =
      walk fs.tree follow maxSymlinks ([] ++ dir) [] := walk_physical dir hdir []
  rw [List.append_nil, walk_nil, List.nil_append] at hphysical
  rw [FileSystem.resolve_absolute, hphysical]

theorem leadsTo_physical {fs : FileSystem} {root : Loc} (h : fs.tree.isDir root = true) :
    LeadsTo fs ⟨true, root⟩ root := by
  intro tree htree
  have hsame : tree.get root = fs.tree.get root := htree root fun hbelow ↦ hbelow.2 rfl
  refine resolve_physical ?_ true
  change tree.isDir root = true
  rw [FileTree.isDir, hsame]
  exact h

/-! ### The calls -/

/-- A call that touched objects inside the root only, changed nothing outside it, and left
it confined. -/
structure StaysInside {α : Type} (root : Loc) (fs : FileSystem) (done : Done α) : Prop where
  touched : ∀ loc ∈ done.touched, root <+: loc
  confined : Confined root done.fs.tree
  outside : ∀ loc, ¬ Below root loc → done.fs.tree.get loc = fs.tree.get loc
  cwd : done.fs.cwd = fs.cwd

section Calls

variable {root : Loc} {fs : FileSystem} {path : Path}

/-- A call that leaves the tree as it is. -/
theorem Confined.staysInside {α : Type} (h : Confined root fs.tree) {done : Done α}
    (htouched : ∀ loc ∈ done.touched, root <+: loc) (htree : done.fs.tree = fs.tree)
    (hcwd : done.fs.cwd = fs.cwd) : StaysInside root fs done :=
  ⟨htouched, htree ▸ h, fun loc _ ↦ by rw [htree], hcwd⟩

/-- A call that edits the tree below the root. -/
theorem Confined.staysInside_of_edit {α : Type} (h : Confined root fs.tree) {done : Done α}
    {placed : Loc → Prop} (hedit : Edit root fs.tree done.fs.tree placed)
    (hplaces : PlacesInside root fs.tree done.fs.tree placed)
    (htouched : ∀ loc ∈ done.touched, root <+: loc) (hcwd : done.fs.cwd = fs.cwd) :
    StaysInside root fs done := by
  refine ⟨htouched, h.edit hedit hplaces, fun loc hout ↦ ?_, hcwd⟩
  by_contra hchanged
  exact hout (hedit.below loc hchanged)

theorem touched_singleton {loc : Loc} (h : root <+: loc) : ∀ other ∈ [loc], root <+: other := by
  simpa using h

/-- An entry and the directory that holds it. -/
theorem touched_entry {loc dir : Loc} (hloc : root <+: loc) (hdir : root <+: dir) :
    ∀ other ∈ [loc, dir], root <+: other := by
  simpa using ⟨hloc, hdir⟩

theorem Below.dropLast {loc : Loc} (h : Below root loc) : root <+: loc.dropLast := by
  rcases loc.eq_nil_or_concat' with rfl | ⟨dir, name, rfl⟩
  · exact absurd (List.prefix_nil.mp h.1).symm h.2
  · rw [List.dropLast_concat]
    exact h.dir

/-- An entry of a directory inside the root is inspected inside. Assumes: the directory is
not the root itself if the entry is `..`. -/
theorem Confined.child_inside (h : Confined root fs.tree) (hpath : path.Under root) {name : Name}
    (hname : IsListed name)
    (hup : name = dotdot → root = [] ∨ fs.resolve true path.entry ≠ .found root) :
    (fs.resolve false (path.join (Path.ofBytes name))).Inside root := by
  have hentry := hpath.entry h.notMem_nil
  have hjoin : path.join (Path.ofBytes name) = ⟨true, path.entry.comps ++ [name]⟩ := by
    rw [hname.ofBytes, Path.join]
    simp [hpath.absolute]
  rw [hjoin]
  by_cases heq : name = dotdot
  · rw [FileSystem.resolve_absolute, heq]
    have hinside := h.resolve_inside hentry true
    have hresolve : fs.resolve true path.entry =
        walk fs.tree true maxSymlinks [] path.entry.comps := by
      rw [← FileSystem.resolve_absolute, ← hentry.absolute]
    have hcontinues := walk_append false maxSymlinks path.entry.comps
      (List.cons_ne_nil dotdot []) fs.tree.isDir_nil
    rw [← hresolve] at hcontinues
    rcases hwalk : fs.resolve true path.entry with loc | ⟨dir, last, rest⟩ | error
    · rw [hwalk] at hinside hcontinues
      rw [Walk.Continues] at hcontinues
      split_ifs at hcontinues
      · obtain ⟨left, -, hwhole⟩ := hcontinues
        rw [hwhole, walk_dotdot, walk_nil]
        rcases hup heq with hroot | hne
        · rw [hroot]
          exact List.nil_prefix
        · refine Below.dropLast ⟨hinside, ?_⟩
          rintro rfl
          exact hne hwalk
      · rw [hcontinues]
        trivial
    · rw [hwalk, Walk.Continues] at hcontinues
      rw [hcontinues]
      exact fun hnil ↦ absurd (List.append_eq_nil_iff.mp hnil).2 (List.cons_ne_nil _ _)
    · rw [hwalk, Walk.Continues] at hcontinues
      rw [hcontinues]
      trivial
  · refine h.resolve_inside ⟨rfl, hentry.inside.trans (List.prefix_append _ _), ?_⟩ false
    rw [List.mem_append, not_or, List.mem_singleton]
    exact ⟨hentry.noClimb, Ne.symm heq⟩

/-- A path that leads to the root still does after the call. -/
theorem StaysInside.leadsTo {α : Type} {done : Done α} (h : StaysInside root fs done)
    (hleads : LeadsTo fs path root) : LeadsTo done.fs path root := by
  intro tree htree
  have hfound := hleads tree fun loc hout ↦ (htree loc hout).trans (h.outside loc hout)
  rw [← hfound]
  unfold FileSystem.resolve
  rw [h.cwd]

theorem Confined.statPath (h : Confined root fs.tree) {follow : Bool} {done : Done Stat}
    (hinside : (fs.resolve follow path).Inside root) (hdone : fs.statPath follow path = .ok done) :
    StaysInside root fs done := by
  unfold FileSystem.statPath at hdone
  split at hdone
  · exact nomatch hdone
  · next loc hlookup =>
    rw [FileSystem.lookup_eq_ok_iff.mp hlookup] at hinside
    split at hdone
    · exact nomatch hdone
    · rw [← Except.ok.inj hdone]
      exact h.staysInside (touched_singleton hinside) rfl rfl

theorem Confined.readlink (h : Confined root fs.tree) (hpath : path.Under root) {size : ℕ}
    {done : Done Bytes} (hdone : fs.readlink path size = .ok done) : StaysInside root fs done := by
  unfold FileSystem.readlink at hdone
  split at hdone
  · exact nomatch hdone
  · next loc hlookup =>
    split at hdone
    · rw [← Except.ok.inj hdone]
      exact h.staysInside (touched_singleton (h.lookup_inside hpath hlookup)) rfl rfl
    · exact nomatch hdone

theorem Confined.opendir (h : Confined root fs.tree) (hpath : path.Under root)
    {done : Done DirStream} (hdone : fs.opendir path = .ok done) :
    StaysInside root fs done ∧ root <+: done.value.loc ∧
      ∀ name ∈ done.value.pending, IsListed name := by
  unfold FileSystem.opendir at hdone
  split at hdone
  · exact nomatch hdone
  · next loc hlookup =>
    have hinside := h.lookup_inside hpath hlookup
    split_ifs at hdone
    rw [← Except.ok.inj hdone]
    refine ⟨h.staysInside (touched_singleton hinside) rfl rfl, hinside, ?_⟩
    intro name hname
    rcases List.mem_cons.mp hname with rfl | hname
    · exact Or.inl rfl
    · rcases List.mem_cons.mp hname with rfl | hname
      · exact Or.inr (Or.inl rfl)
      · have hexists := FileTree.mem_children_iff.mp hname
        exact Or.inr (Or.inr (FileTree.properName_of_mem hexists (by simp)))

/-- What a call on a descriptor touches is where the file was opened. -/
theorem Confined.fstat (h : Confined root fs.tree) {file : OpenFile} (hfile : root <+: file.loc)
    {done : Done Stat} (hdone : fs.fstat file = .ok done) : StaysInside root fs done := by
  rw [← Except.ok.inj hdone]
  exact h.staysInside (touched_singleton hfile) rfl rfl

theorem Confined.pread (h : Confined root fs.tree) {file : OpenFile} (hfile : root <+: file.loc)
    {size : ℕ} {offset : Int64} {done : Done Bytes} (hdone : fs.pread file size offset = .ok done) :
    StaysInside root fs done := by
  unfold FileSystem.pread at hdone
  split_ifs at hdone
  rw [← Except.ok.inj hdone]
  exact h.staysInside (touched_singleton hfile) rfl rfl

theorem Confined.pwrite (h : Confined root fs.tree) {file : OpenFile} (hfile : root <+: file.loc)
    {data : Bytes} {offset : Int64} {done : Done ℕ}
    (hdone : fs.pwrite file data offset = .ok done) : StaysInside root fs done := by
  unfold FileSystem.pwrite at hdone
  split_ifs at hdone
  · rw [← Except.ok.inj hdone]
    exact h.staysInside (touched_singleton hfile) rfl rfl
  · rw [← Except.ok.inj hdone]
    exact h.staysInside (touched_singleton hfile) rfl rfl

theorem Confined.openExisting (h : Confined root fs.tree) {loc : Loc} (hloc : root <+: loc)
    {flags : OpenFlags} {done : Done OpenFile} (hdone : fs.openExisting loc flags = .ok done) :
    StaysInside root fs done ∧ root <+: done.value.loc := by
  unfold FileSystem.openExisting at hdone
  by_cases hexcl : flags.creat = true ∧ flags.excl = true
  · rw [if_pos hexcl] at hdone
    exact nomatch hdone
  · rw [if_neg hexcl] at hdone
    split at hdone
    · exact nomatch hdone
    · split_ifs at hdone
      rw [← Except.ok.inj hdone]
      exact ⟨h.staysInside (touched_singleton hloc) rfl rfl, hloc⟩
    · rw [← Except.ok.inj hdone]
      refine ⟨h.staysInside (touched_singleton hloc) ?_ ?_, hloc⟩
      · dsimp only
        split_ifs <;> rfl
      · dsimp only
        split_ifs <;> rfl
    · exact nomatch hdone

/-- The tree that `create` leaves. -/
theorem putAt_of_create {dir : Loc} {name : Name} {node : ℕ → Node} {mode : UInt32} {done : Done ℕ}
    (hdone : fs.create dir name node mode = .ok done) :
    fs.tree.putAt dir name (node fs.inodes.length) = some done.fs.tree ∧
      done.touched = [dir ++ [name], dir] ∧ done.fs.cwd = fs.cwd := by
  unfold FileSystem.create at hdone
  split at hdone
  · exact nomatch hdone
  · next tree hput =>
    rw [← Except.ok.inj hdone]
    exact ⟨hput, rfl, rfl⟩

theorem Confined.openFile (h : Confined root fs.tree) (hpath : path.Under root)
    {flags : OpenFlags} {mode : UInt32} {done : Done OpenFile}
    (hdone : fs.openFile path flags mode = .ok done) :
    StaysInside root fs done ∧ root <+: done.value.loc := by
  have hinside := h.resolve_inside hpath (!(flags.creat && flags.excl))
  unfold FileSystem.openFile at hdone
  split at hdone
  · next loc hresolve =>
    rw [hresolve] at hinside
    exact h.openExisting hinside hdone
  · next dir name rest hresolve =>
    rw [hresolve] at hinside
    split_ifs at hdone with hcreat
    have hdir : root <+: dir := hinside hcreat.2
    have hentry : root <+: dir ++ [name] := (below_concat hdir name).1
    split at hdone
    · exact nomatch hdone
    · next created hcreated =>
      obtain ⟨hput, htouched, hcwd⟩ := putAt_of_create hcreated
      rw [← Except.ok.inj hdone]
      refine ⟨h.staysInside_of_edit (edit_putFile hdir hput) (placesInside_nothing _ _ _) ?_ hcwd,
        hentry⟩
      rw [htouched]
      exact touched_entry hentry hdir
  · exact nomatch hdone

/-- `mkdir`. Assumes: the links it lets climb on resolve inside. -/
theorem Confined.mkdir (h : Confined root fs.tree) (hpath : path.Under root) {mode : UInt32}
    {done : Done Unit} (hdone : fs.mkdir path mode = .ok done)
    (hfills : FillsInside root fs.tree done.fs.tree) : StaysInside root fs done := by
  unfold FileSystem.mkdir at hdone
  split at hdone
  · exact nomatch hdone
  · next dir name hlookup =>
    have hdir := h.lookupFree_inside (hpath.entry h.notMem_nil) hlookup
    split at hdone
    · exact nomatch hdone
    · next created hcreated =>
      obtain ⟨hput, htouched, hcwd⟩ := putAt_of_create hcreated
      rw [← Except.ok.inj hdone] at hfills ⊢
      refine h.staysInside_of_edit (edit_putAt hdir hput) hfills ?_ hcwd
      rw [htouched]
      exact touched_entry (below_concat hdir name).1 hdir

/-- A new directory does not matter to the links of a tree that has none. -/
theorem fillsInside_mkdir {mode : UInt32} {done : Done Unit}
    (hnone : ∀ loc target attr, fs.tree.get loc ≠ some (.symlink target attr))
    (hdone : fs.mkdir path mode = .ok done) : FillsInside root fs.tree done.fs.tree := by
  intro dir name target attr _ hget
  unfold FileSystem.mkdir at hdone
  split at hdone
  · exact nomatch hdone
  · split at hdone
    · exact nomatch hdone
    · next created hcreated =>
      rw [← Except.ok.inj hdone, FileTree.get_of_putAt (putAt_of_create hcreated).1] at hget
      split_ifs at hget
      · exact nomatch hget
      · exact absurd hget (hnone _ target attr)

/-- `symlink`. Assumes: the new link, and those it lets climb on, resolve inside. -/
theorem Confined.symlink (h : Confined root fs.tree) (hpath : path.Under root) {target : Bytes}
    {done : Done Unit} (hdone : fs.symlink target path = .ok done)
    (hfills : FillsInside root fs.tree done.fs.tree) : StaysInside root fs done := by
  unfold FileSystem.symlink at hdone
  split_ifs at hdone with hempty htext
  split at hdone
  · exact nomatch hdone
  · next dir name hlookup =>
    have hdir := h.lookupFree_inside hpath hlookup
    split at hdone
    · exact nomatch hdone
    · next tree hput =>
      rw [← Except.ok.inj hdone] at hfills ⊢
      refine h.staysInside_of_edit (edit_putAt hdir hput) hfills ?_ rfl
      exact touched_entry (below_concat hdir name).1 hdir

theorem Confined.removeEntry (h : Confined root fs.tree) {loc : Loc} (hloc : Below root loc)
    {done : Done Unit} (hdone : fs.removeEntry loc = .ok done) :
    StaysInside root fs done ∧ fs.tree.removeLeaf loc = some done.fs.tree := by
  unfold FileSystem.removeEntry at hdone
  split at hdone
  · exact nomatch hdone
  · next tree hremove =>
    rw [← Except.ok.inj hdone]
    refine ⟨?_, hremove⟩
    exact h.staysInside_of_edit (edit_removeLeaf hloc hremove) (placesInside_nothing _ _ _)
      (touched_entry hloc.1 hloc.dropLast) rfl

/-- An object inside that is not a directory is not the root itself. -/
theorem Confined.below_of_not_isDir (h : Confined root fs.tree) {loc : Loc} (hloc : root <+: loc)
    (hleaf : fs.tree.isDir loc = false) : Below root loc := by
  refine ⟨hloc, fun heq ↦ ?_⟩
  rw [heq, h.isDir] at hleaf
  exact Bool.false_ne_true hleaf.symm

theorem Confined.unlink (h : Confined root fs.tree) (hpath : path.Under root) {done : Done Unit}
    (hdone : fs.unlink path = .ok done) : StaysInside root fs done := by
  unfold FileSystem.unlink at hdone
  split at hdone
  · exact nomatch hdone
  · next loc hlookup =>
    have hinside := h.lookup_inside (hpath.entry h.notMem_nil) hlookup
    split_ifs at hdone with hdir hslash
    exact (h.removeEntry (h.below_of_not_isDir hinside (by simpa using hdir)) hdone).1

/-- An entry named by a path under the root lies below the root, unless the path names the
root itself. -/
theorem Confined.below_of_named (h : Confined root fs.tree) (hpath : path.Under root)
    (hname : path.endsInName) {loc : Loc} (hfound : fs.resolve false path = .found loc)
    (hne : path.comps ≠ root) : Below root loc := by
  obtain ⟨absolute, comps⟩ := path
  obtain rfl : absolute = true := hpath.absolute
  obtain ⟨below, rfl⟩ := hpath.inside
  rcases below.eq_nil_or_concat' with rfl | ⟨upper, last, rfl⟩
  · exact absurd (List.append_nil root) hne
  · have hlast : isEntryName last := by
      simpa [Path.endsInName] using hname
    have hdir : fs.tree.isDir ([] ++ root) = true := h.isDir
    rw [FileSystem.resolve_absolute, walk_physical root hdir, List.nil_append] at hfound
    obtain ⟨dir, hwalk, rfl⟩ := walk_upper_of_found hlast h.isDir hfound
    have hinside : (walk fs.tree true maxSymlinks root upper).Inside root :=
      h.links.walk_inside le_rfl (List.prefix_refl root) h.isDir
        fun hup ↦ hpath.noClimb (by simp [hup])
    rw [hwalk] at hinside
    exact below_concat hinside last

/-- `rmdir`. Assumes: it is not made on the root itself while that is empty. -/
theorem Confined.rmdir (h : Confined root fs.tree) (hpath : path.Under root) {done : Done Unit}
    (hdone : fs.rmdir path = .ok done)
    (hroot : path.entry.comps = root → root ≠ [] → fs.tree.children root ≠ []) :
    StaysInside root fs done := by
  have hentry := hpath.entry h.notMem_nil
  unfold FileSystem.rmdir at hdone
  by_cases hname : path.entry.endsInName
  · rw [if_neg (not_not.mpr hname)] at hdone
    split at hdone
    · cases hdone
    · next loc hlookup =>
      split_ifs at hdone with hdir
      have hfound := FileSystem.lookup_eq_ok_iff.mp hlookup
      by_cases heq : path.entry.comps = root
      · -- the root is not empty, so that it cannot be removed
        have hne : root ≠ [] := by
          rintro rfl
          simp [Path.endsInName, heq] at hname
        have hphysical : path.entry = ⟨true, root⟩ := by rw [← heq, ← hentry.absolute]
        rw [hphysical, resolve_physical h.isDir] at hfound
        rw [FileSystem.removeEntry, FileTree.removeLeaf, ← Walk.found.inj hfound,
          dif_neg (fun hleaf ↦ hroot heq hne hleaf.2)] at hdone
        cases hdone
      · exact (h.removeEntry (h.below_of_named hentry hname hfound heq) hdone).1
  · rw [if_pos hname] at hdone
    cases hdone

/-- A move below the root. Assumes: the links that it brings along or lets climb on resolve
inside. -/
theorem Confined.moveEntry (h : Confined root fs.tree) {source dir : Loc} {name : Name}
    (hsource : root <+: source) (hdir : root <+: dir) {done : Done Unit}
    (hdone : fs.moveEntry source dir name = .ok done)
    (hfills : FillsInside root fs.tree done.fs.tree) : StaysInside root fs done := by
  unfold FileSystem.moveEntry at hdone
  split at hdone
  · exact nomatch hdone
  · next tree hmove =>
    have hmovable := FileTree.movable_of_moveTo hmove
    have hentry : root <+: dir ++ [name] := (below_concat hdir name).1
    have hbelow : Below root source := by
      refine ⟨hsource, ?_⟩
      rintro rfl
      exact hmovable.outside hentry
    rw [← Except.ok.inj hdone] at hfills ⊢
    refine h.staysInside_of_edit (edit_moveTo hbelow hdir hmove) hfills ?_ rfl
    intro loc hloc
    rcases List.mem_cons.mp hloc with rfl | hloc
    · exact hsource
    · rcases List.mem_cons.mp hloc with rfl | hloc
      · exact hbelow.dropLast
      · exact touched_entry hentry hdir loc hloc

/-- What is renamed over lies below the root: the root itself is a directory that holds the
source. -/
theorem Confined.below_of_removed (h : Confined root fs.tree) {source dest : Loc}
    (hexists : fs.tree.get source ≠ none) (hsource : root <+: source) (hdest : root <+: dest)
    (hinto : ¬ (fs.tree.isDir source = true ∧ source <+: dest))
    (hdir : ¬ (fs.tree.isDir source = false ∧ fs.tree.isDir dest = true))
    {after : FileTree} (hremove : fs.tree.removeLeaf dest = some after) : Below root dest := by
  refine ⟨hdest, ?_⟩
  rintro rfl
  have hsourceDir : fs.tree.isDir source = true := by
    by_contra hleaf
    exact hdir ⟨by simpa using hleaf, h.isDir⟩
  have hne : source ≠ dest := by
    rintro rfl
    exact hinto ⟨hsourceDir, List.prefix_refl _⟩
  rw [FileTree.removeLeaf, dif_neg fun hleaf ↦
    FileTree.children_ne_nil hexists hsource hne hleaf.2] at hremove
  cases hremove

/-- `rename`. Assumes: the links that it brings along or lets climb on resolve inside. -/
theorem Confined.rename (h : Confined root fs.tree) {source dest : Path}
    (hsource : source.Under root) (hdest : dest.Under root) {done : Done Unit}
    (hdone : fs.rename source dest = .ok done)
    (hfills : FillsInside root (fs.withoutEntry dest) done.fs.tree) : StaysInside root fs done := by
  have hsourceEntry := hsource.entry h.notMem_nil
  have hdestInside := h.resolve_inside (hdest.entry h.notMem_nil) false
  unfold FileSystem.rename at hdone
  rw [FileSystem.withoutEntry] at hfills
  by_cases hnames : source.entry.endsInName ∧ dest.entry.endsInName
  · rw [if_neg (not_not.mpr hnames)] at hdone
    split at hdone
    · exact nomatch hdone
    · next loc hlookup =>
      have hloc := h.lookup_inside hsourceEntry hlookup
      have hexists : fs.tree.get loc ≠ none := by
        have hsound := fs.resolve_sound false source.entry
        rwa [FileSystem.lookup_eq_ok_iff.mp hlookup] at hsound
      split_ifs at hdone with hslash
      split at hdone
      · next destLoc hresolve =>
        rw [hresolve] at hdestInside hfills
        change FillsInside root ((fs.tree.removeLeaf destLoc).getD fs.tree) done.fs.tree at hfills
        unfold FileSystem.renameOver at hdone
        split_ifs at hdone with hsame hinto hnotDir hdir
        · rw [← Except.ok.inj hdone]
          exact h.staysInside (touched_entry hloc hdestInside) rfl rfl
        · split at hdone
          · exact nomatch hdone
          · next cleared hcleared =>
            obtain ⟨after, hremove⟩ : ∃ after, fs.tree.removeLeaf destLoc = some after := by
              unfold FileSystem.removeEntry at hcleared
              split at hcleared
              · exact nomatch hcleared
              · next after hremove => exact ⟨after, hremove⟩
            have hbelow := h.below_of_removed hexists hloc hdestInside hinto hdir hremove
            obtain ⟨hclear, htree⟩ := h.removeEntry hbelow hcleared
            rw [htree] at hfills
            have hmove := hclear.confined.moveEntry hloc hbelow.dropLast hdone hfills
            exact ⟨hmove.touched, hmove.confined,
              fun other hout ↦ (hmove.outside other hout).trans (hclear.outside other hout),
              hmove.cwd.trans hclear.cwd⟩
      · next dir name hresolve =>
        rw [hresolve] at hdestInside hfills
        exact h.moveEntry hloc (hdestInside rfl) hdone hfills
      · exact nomatch hdone
      · exact nomatch hdone
  · rw [if_pos hnames] at hdone
    exact nomatch hdone

end Calls

end LibSshpp.Posix
