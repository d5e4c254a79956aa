import LibSshpp.Posix.CanonicalPath

/-!
Directory entries that are symbolic links, by the physical path of their directory: the
calls that do not follow the last component act on the entry itself. A pathname that
ends in the name of an entry is made canonical to that physical path if following it leads
to nothing; otherwise it is made canonical to what the link points to.
-/

set_option autoImplicit false
set_option relaxedAutoImplicit false

namespace LibSshpp.Posix

/-! ### Following a path -/

/-- A path that is followed does not end at a link. -/
theorem walk_found_not_link {tree : FileTree} {links : ℕ} {cur loc : Loc} {comps : List Name}
    (hcur : tree.isDir cur = true) (h : walk tree true links cur comps = .found loc)
    (target : LinkTarget) (attr : NodeAttr) : tree.get loc ≠ some (.symlink target attr) := by
  induction links, cur, comps using walk_induction tree true with
  | nil links cur =>
    rw [walk_nil] at h
    obtain ⟨ino, hget⟩ := FileTree.isDir_iff.mp hcur
    rw [← Walk.found.inj h, hget]
    exact nofun
  | idle links cur comp rest hidle ih =>
    rw [walk_idle hidle] at h
    exact ih hcur h
  | up links cur rest ih =>
    rw [walk_dotdot] at h
    exact ih (isDir_dropLast_of_isDir hcur) h
  | absent links cur comp rest hentry hget =>
    rw [walk_absent hentry hget] at h
    exact nomatch h
  | dir links cur comp rest ino hentry hget ih =>
    rw [walk_dir hentry hget] at h
    exact ih (FileTree.isDir_iff.mpr ⟨ino, hget⟩) h
  | file links cur comp rest ino hentry hget =>
    rw [walk_file hentry hget] at h
    split_ifs at h
    rw [← Walk.found.inj h, hget]
    exact nofun
  | kept links cur comp target attr hentry hget hfollow => exact absurd hfollow (by decide)
  | exhausted cur comp rest target attr hentry hget hgo =>
    rw [walk_link_exhausted hentry hget hgo] at h
    exact nomatch h
  | link links cur comp rest target attr hentry hget hgo ih =>
    rw [walk_link hentry hget hgo] at h
    exact ih (isDir_linkStart hcur _) h

section Resolve

variable {fs : FileSystem}

/-- Where the walk of a pathname starts. -/
theorem isDir_start {path : Path}
    (h : ¬ (path.absolute = false ∧ (path.comps = [] ∨ fs.tree.isDir fs.cwd = false))) :
    fs.tree.isDir (if path.absolute then [] else fs.cwd) = true := by
  split_ifs with habsolute
  · exact fs.tree.isDir_nil
  · by_contra hcwd
    exact h ⟨by simpa using habsolute, Or.inr (by simpa using hcwd)⟩

theorem starts_of_found {follow : Bool} {path : Path} {loc : Loc}
    (h : fs.resolve follow path = .found loc) :
    ¬ (path.absolute = false ∧ (path.comps = [] ∨ fs.tree.isDir fs.cwd = false)) := by
  intro hnowhere
  rw [FileSystem.resolve, if_pos hnowhere] at h
  cases h

theorem not_link_of_found {path : Path} {loc : Loc} (h : fs.resolve true path = .found loc)
    (target : LinkTarget) (attr : NodeAttr) : fs.tree.get loc ≠ some (.symlink target attr) := by
  have hstarts := starts_of_found h
  rw [FileSystem.resolve, if_neg hstarts] at h
  exact walk_found_not_link (isDir_start hstarts) h target attr

/-- Every beginning of a path that leads somewhere leads somewhere. -/
theorem found_of_append {absolute : Bool} {first second : List Name} {loc : Loc} (hne : first ≠ [])
    (h : fs.resolve true ⟨absolute, first ++ second⟩ = .found loc) :
    ∃ upper, fs.resolve true ⟨absolute, first⟩ = .found upper := by
  by_cases hsecond : second = []
  · rw [hsecond, List.append_nil] at h
    exact ⟨loc, h⟩
  · have hstarts := starts_of_found h
    have hstarts' : ¬ (absolute = false ∧ (first = [] ∨ fs.tree.isDir fs.cwd = false)) :=
      fun hnowhere ↦ hstarts ⟨hnowhere.1, Or.inr (hnowhere.2.resolve_left hne)⟩
    have hcontinues := walk_append true maxSymlinks first hsecond (isDir_start hstarts)
    rw [FileSystem.resolve, if_neg hstarts] at h
    rw [FileSystem.resolve, if_neg hstarts']
    rw [h] at hcontinues
    rcases hwalk : walk fs.tree true maxSymlinks (if absolute then [] else fs.cwd) first with
      upper | ⟨dir, name, rest⟩ | error
    · exact ⟨upper, rfl⟩
    · rw [hwalk, Walk.Continues] at hcontinues
      cases hcontinues
    · rw [hwalk, Walk.Continues] at hcontinues
      cases hcontinues

/-- The physical path of an object leads to it if the last component is not followed. -/
theorem resolve_physical_entry {dir : Loc} {name : Name} (hname : isEntryName name)
    (hexists : fs.tree.get (dir ++ [name]) ≠ none) :
    fs.resolve false ⟨true, dir ++ [name]⟩ = .found (dir ++ [name]) := by
  have hdir : fs.tree.isDir ([] ++ dir) = true := FileTree.isDir_of_get_concat hexists
  rw [FileSystem.resolve_absolute, walk_physical dir hdir, List.nil_append, walk_lastName hname,
    if_neg hexists]

end Resolve

/-! ### Canonical paths -/

section Canonical

variable {fs : FileSystem}

theorem statusExists_of_found {path : Path} {loc : Loc} (h : fs.resolve true path = .found loc) :
    fs.statusExists path = .ok true := by
  rw [FileSystem.statusExists, h]

theorem found_of_statusExists {path : Path} (h : fs.statusExists path = .ok true) :
    ∃ loc, fs.resolve true path = .found loc := by
  unfold FileSystem.statusExists at h
  split at h
  · next loc hfound => exact ⟨loc, hfound⟩
  · exact nomatch h
  · split_ifs at h
    exact nomatch h

/-- The elements of a path that leads somewhere all exist. -/
theorem existingPrefix_append {absolute : Bool} {loc : Loc} (found first rest : List Name)
    (h : fs.resolve true ⟨absolute, found ++ first⟩ = .found loc) :
    fs.existingPrefix absolute found (first ++ rest) =
      fs.existingPrefix absolute (found ++ first) rest := by
  induction first generalizing found with
  | nil => rw [List.nil_append, List.append_nil]
  | cons comp first ih =>
    rw [List.append_cons found comp first] at h ⊢
    obtain ⟨upper, hupper⟩ := found_of_append (by simp) h
    rw [List.cons_append, FileSystem.existingPrefix, statusExists_of_found hupper]
    exact ih _ h

theorem isEntryName_of_proper {name : Name} (h : ProperName name) : isEntryName name :=
  ⟨fun hidle ↦ hidle.elim h.1 h.2.1, h.2.2.1⟩

/-- A path that leads nowhere, but whose directory does, is made canonical to the physical path
of the entry. -/
theorem weaklyCanonical_of_dangling {absolute : Bool} {upper : List Name} {name : Name} {dir : Loc}
    (hname : isEntryName name) (hupper : fs.resolve true ⟨absolute, upper⟩ = .found dir)
    (hdangles : fs.statusExists ⟨absolute, upper ++ [name]⟩ = .ok false) :
    fs.weaklyCanonical ⟨absolute, upper ++ [name]⟩ = .ok ⟨true, dir ++ [name]⟩ := by
  have hfound : fs.resolve true ⟨absolute, [] ++ upper⟩ = .found dir := hupper
  have hsplit : fs.existingPrefix absolute [] (upper ++ [name]) = .ok (upper, [name]) := by
    rw [existingPrefix_append [] upper [name] hfound, List.nil_append, FileSystem.existingPrefix,
      hdangles]
  have hcanonical : fs.canonical ⟨absolute, upper⟩ = .ok ⟨true, dir⟩ :=
    FileSystem.canonical_eq_ok_iff.mpr ⟨dir, hupper, rfl⟩
  have hstarts : ¬ (absolute = false ∧ upper = []) := fun hnowhere ↦
    starts_of_found hupper ⟨hnowhere.1, Or.inl hnowhere.2⟩
  have hexists := fs.resolve_sound true ⟨absolute, upper⟩
  rw [hupper] at hexists
  have hnames : ∀ other ∈ dir ++ [name], isEntryName other := by
    intro other hother
    rcases List.mem_append.mp hother with hother | hother
    · exact isEntryName_of_proper (FileTree.properName_of_mem hexists hother)
    · rw [List.mem_singleton.mp hother]
      exact hname
  rw [FileSystem.weaklyCanonical, hdangles]
  simp only [hsplit, if_neg hstarts, hcanonical]
  rw [Path.lexicallyNormal_names hnames (by simp)]

/-- A path to a free name leads nowhere. -/
theorem statusExists_of_free {absolute : Bool} {upper : List Name} {name : Name} {dir : Loc}
    (hname : isEntryName name) (hupper : fs.resolve true ⟨absolute, upper⟩ = .found dir)
    (hdir : fs.tree.isDir dir = true) (hfree : fs.tree.get (dir ++ [name]) = none) :
    fs.statusExists ⟨absolute, upper ++ [name]⟩ = .ok false := by
  have hstarts := starts_of_found hupper
  have hstarts' : ¬ (absolute = false ∧ (upper ++ [name] = [] ∨ fs.tree.isDir fs.cwd = false)) :=
    fun hnowhere ↦ hstarts ⟨hnowhere.1, Or.inr (hnowhere.2.resolve_left (by simp))⟩
  have hcontinues := walk_append true maxSymlinks upper (List.cons_ne_nil name [])
    (isDir_start hstarts)
  rw [FileSystem.resolve, if_neg hstarts] at hupper
  rw [hupper, Walk.Continues, if_pos hdir] at hcontinues
  obtain ⟨left, -, hwalk⟩ := hcontinues
  rw [walk_absent hname hfree] at hwalk
  rw [FileSystem.statusExists, FileSystem.resolve, if_neg hstarts', hwalk]

end Canonical

/-! ### Calls on an entry -/

/-- The object at a location is gone, and everything else is where and what it was. -/
def RemovedAt (before after : FileSystem) (gone : Loc) : Prop :=
  after.inodes = before.inodes ∧ ∀ loc, after.tree.get loc =
    if loc = gone then none else before.tree.get loc

/-- The object at `source` is now at `dest`, and everything else is where and what it was. -/
def MovedTo (before after : FileSystem) (source dest : Loc) : Prop :=
  after.inodes = before.inodes ∧ ∀ loc, after.tree.get loc =
    if loc = dest then before.tree.get source
    else if loc = source then none
    else before.tree.get loc

/-- The type in the mode of an object is not disturbed by its permissions. -/
theorem statOf_type (attr : NodeAttr) (type : UInt32) (size : ℕ) :
    (FileSystem.statOf attr type size).mode &&& modeTypeMask = type &&& modeTypeMask := by
  have hdistrib : (type ||| (attr.perm &&& modePermissions)) &&& modeTypeMask =
      (type &&& modeTypeMask) ||| (attr.perm &&& modePermissions &&& modeTypeMask) :=
    UInt32.toBitVec_inj.mp BitVec.and_or_distrib_right
  have hdisjoint : modePermissions &&& modeTypeMask = 0 := by decide
  exact hdistrib.trans (by rw [UInt32.and_assoc, hdisjoint, UInt32.and_zero, UInt32.or_zero])

section Calls

variable {fs : FileSystem} {dir : Loc} {name : Name}

theorem entry_physical (dir : Loc) (hname : isEntryName name) :
    Path.entry ⟨true, dir ++ [name]⟩ = ⟨true, dir ++ [name]⟩ ∧
      (Path.entry ⟨true, dir ++ [name]⟩).endsInName ∧
      Path.hasTrailingSlash ⟨true, dir ++ [name]⟩ = false := by
  have hne : name ≠ [] := fun heq ↦ hname.1 (Or.inl heq)
  have hlast : (dir ++ [name]).getLast? = some name := List.getLast?_concat
  have hentry : Path.entry ⟨true, dir ++ [name]⟩ = ⟨true, dir ++ [name]⟩ := by
    rw [Path.entry, hlast, if_neg (by simpa using hne)]
  refine ⟨hentry, ?_, ?_⟩
  · rw [hentry, Path.endsInName, hlast]
    simpa using hname
  · rw [Path.hasTrailingSlash, hlast]
    simpa using hne

/-- `lstat` on the physical path of an object. -/
theorem lstat_physical {loc : Loc} {node : Node} (hnode : fs.tree.get loc = some node) :
    fs.lstat ⟨true, loc⟩ = .ok ⟨fs.statNode node, fs, [loc]⟩ := by
  have hexists : fs.tree.get loc ≠ none := ne_of_eq_of_ne hnode (Option.some_ne_none _)
  have hfound : fs.resolve false ⟨true, loc⟩ = .found loc := by
    rcases loc.eq_nil_or_concat' with rfl | ⟨dir, name, rfl⟩
    · rw [FileSystem.resolve_absolute, walk_nil]
    · exact resolve_physical_entry
        (isEntryName_of_proper (FileTree.properName_of_mem hexists (by simp))) hexists
  rw [FileSystem.lstat, FileSystem.statPath, FileSystem.lookup_eq_ok_iff.mpr hfound]
  simp only [hnode]

variable {target : LinkTarget} {attr : NodeAttr}
  (hname : isEntryName name) (hlink : fs.tree.get (dir ++ [name]) = some (.symlink target attr))

include hname hlink

theorem lookup_link : fs.lookup false ⟨true, dir ++ [name]⟩ = .ok (dir ++ [name]) :=
  FileSystem.lookup_eq_ok_iff.mpr
    (resolve_physical_entry hname (ne_of_eq_of_ne hlink (Option.some_ne_none _)))

omit hname in
theorem isDir_link : fs.tree.isDir (dir ++ [name]) = false := by
  rw [FileTree.isDir, hlink]
  rfl

theorem readlink_link (size : ℕ) : fs.readlink ⟨true, dir ++ [name]⟩ size =
    .ok ⟨target.val.take size, fs, [dir ++ [name]]⟩ := by
  rw [FileSystem.readlink, lookup_link hname hlink]
  simp only [hlink]

/-- `unlink` takes the link away and nothing else. -/
theorem unlink_link : ∃ done, fs.unlink ⟨true, dir ++ [name]⟩ = .ok done ∧
    RemovedAt fs done.fs (dir ++ [name]) := by
  have hleaf := isDir_link hlink
  obtain ⟨after, hremove⟩ :=
    FileTree.removeLeaf_isSome (by simp) (FileTree.children_eq_nil hleaf)
  obtain ⟨hentry, -, hslash⟩ := entry_physical dir hname
  refine ⟨⟨(), { fs with tree := after }, [dir ++ [name], (dir ++ [name]).dropLast]⟩, ?_, rfl,
    FileTree.get_of_removeLeaf hremove⟩
  rw [FileSystem.unlink, hentry, lookup_link hname hlink]
  simp only [hleaf, hslash, FileSystem.removeEntry, hremove, Bool.false_eq_true, if_false]

omit hname hlink in
/-- `symlink` stores the text it is given. -/
theorem stored_of_symlink {text : Bytes} {path : Path} {done : Done Unit}
    (hdone : fs.symlink text path = .ok done) : ∃ loc stored attr, fs.tree.get loc = none ∧
      stored.val = text ∧ done.fs.tree.get loc = some (.symlink stored attr) := by
  unfold FileSystem.symlink at hdone
  split_ifs at hdone with hempty htext
  split at hdone
  · exact nomatch hdone
  · next dir name hlookup =>
    split at hdone
    · exact nomatch hdone
    · next tree hput =>
      have hget := FileTree.get_of_putAt hput (dir ++ [name])
      rw [if_pos rfl] at hget
      rw [← Except.ok.inj hdone]
      exact ⟨dir ++ [name], ⟨text, htext⟩, _, FileTree.free_of_putAt hput, rfl, hget⟩

end Calls

section Move

variable {fs : FileSystem} {source : Loc}

theorem moveEntry_leaf (hleaf : fs.tree.isDir source = false) {dir : Loc} {name : Name}
    {done : Done Unit} (hdone : fs.moveEntry source dir name = .ok done) :
    MovedTo fs done.fs source (dir ++ [name]) := by
  unfold FileSystem.moveEntry at hdone
  split at hdone
  · exact nomatch hdone
  · next after hmove =>
    rw [← Except.ok.inj hdone]
    refine ⟨rfl, fun loc ↦ ?_⟩
    have hmovable := FileTree.movable_of_moveTo hmove
    change after.get loc = _
    rw [FileTree.get_of_moveTo hmove]
    by_cases hdest : dir ++ [name] <+: loc
    · obtain ⟨below, rfl⟩ := hdest
      rw [if_pos (List.prefix_append _ _), List.drop_left]
      by_cases hbelow : below = []
      · simp [hbelow]
      · have hne : dir ++ [name] ++ below ≠ dir ++ [name] := by simpa using hbelow
        rw [FileTree.get_append_eq_none hleaf hbelow, if_neg hne, hmovable.get_below, ite_self]
    · have hne : loc ≠ dir ++ [name] := fun heq ↦ hdest (heq ▸ List.prefix_refl _)
      rw [if_neg hdest, if_neg hne]
      by_cases hsource : source <+: loc
      · obtain ⟨below, rfl⟩ := hsource
        rw [if_pos (List.prefix_append _ _)]
        by_cases hbelow : below = []
        · simp [hbelow]
        · rw [FileTree.get_append_eq_none hleaf hbelow, ite_self]
      · have hne' : loc ≠ source := fun heq ↦ hsource (heq ▸ List.prefix_refl _)
        rw [if_neg hsource, if_neg hne']

/-- A link is renamed over an entry that exists. -/
theorem renameOver_link {target : LinkTarget} {attr : NodeAttr}
    (hlink : fs.tree.get source = some (.symlink target attr)) {dest : Loc} {done : Done Unit}
    (hdone : fs.renameOver source dest = .ok done) : MovedTo fs done.fs source dest := by
  have hleaf : fs.tree.isDir source = false := by
    rw [FileTree.isDir, hlink]
    rfl
  unfold FileSystem.renameOver at hdone
  split_ifs at hdone with hsame hinto hnotDir hdir
  · -- the two names are one, since a link has no second name
    have heq : source = dest := by
      rcases hsame with heq | ⟨-, ino, hfile, -⟩
      · exact heq
      · cases hlink.symm.trans hfile
    rw [← Except.ok.inj hdone, ← heq]
    refine ⟨rfl, fun loc ↦ ?_⟩
    by_cases hloc : loc = source
    · rw [if_pos hloc, hloc]
    · rw [if_neg hloc, if_neg hloc]
  · split at hdone
    · cases hdone
    · next cleared hcleared =>
      have hne : source ≠ dest := fun heq ↦ hsame (Or.inl heq)
      unfold FileSystem.removeEntry at hcleared
      split at hcleared
      · cases hcleared
      · next tree hremove =>
        rw [← Except.ok.inj hcleared] at hdone
        have hget := FileTree.get_of_removeLeaf hremove
        have hdest : dest.dropLast ++ [dest.getLastD []] = dest := by
          rcases dest.eq_nil_or_concat' with rfl | ⟨upper, last, rfl⟩
          · simp [FileTree.removeLeaf] at hremove
          · simp
        have hleaf' : tree.isDir source = false := by
          rw [FileTree.isDir, hget, if_neg hne]
          exact hleaf
        obtain ⟨hinodes, hmoved⟩ := moveEntry_leaf hleaf' hdone
        rw [hdest] at hmoved
        refine ⟨hinodes, fun loc ↦ (hmoved loc).trans ?_⟩
        change (if loc = dest then tree.get source else if loc = source then none
          else tree.get loc) = _
        by_cases hloc : loc = dest
        · rw [if_pos hloc, if_pos hloc, hget, if_neg hne]
        · rw [if_neg hloc, if_neg hloc, hget, if_neg hloc]

/-- A successful `rename` of a link moves the link itself. -/
theorem rename_link {dir : Loc} {name : Name} {target : LinkTarget} {attr : NodeAttr}
    (hname : isEntryName name) (hlink : fs.tree.get (dir ++ [name]) = some (.symlink target attr))
    {dest : Path} {done : Done Unit} (hdone : fs.rename ⟨true, dir ++ [name]⟩ dest = .ok done) :
    ∃ loc, MovedTo fs done.fs (dir ++ [name]) loc := by
  unfold FileSystem.rename at hdone
  rw [(entry_physical dir hname).1, lookup_link hname hlink] at hdone
  simp only at hdone
  split_ifs at hdone
  split at hdone
  · next loc _ => exact ⟨loc, renameOver_link hlink hdone⟩
  · next upper last _ => exact ⟨upper ++ [last], moveEntry_leaf (isDir_link hlink) hdone⟩
  · exact nomatch hdone
  · exact nomatch hdone

/-- `rename` moves a link to every free name of a directory. -/
theorem rename_link_free {dir destDir : Loc} {name dest : Name} {target : LinkTarget}
    {attr : NodeAttr} (hname : isEntryName name)
    (hlink : fs.tree.get (dir ++ [name]) = some (.symlink target attr))
    (hdir : fs.tree.isDir destDir = true) (hdest : ProperName dest)
    (hfree : fs.tree.get (destDir ++ [dest]) = none) :
    ∃ done, fs.rename ⟨true, dir ++ [name]⟩ ⟨true, destDir ++ [dest]⟩ = .ok done ∧
      MovedTo fs done.fs (dir ++ [name]) (destDir ++ [dest]) := by
  have hleaf := isDir_link hlink
  have hmovable := FileTree.movable_of_not_isDir
    (ne_of_eq_of_ne hlink (Option.some_ne_none _)) hleaf hdir hfree hdest
  have hmove : fs.moveEntry (dir ++ [name]) destDir dest =
      .ok ⟨(), { fs with tree := fs.tree.move _ _ _ hmovable },
        [dir ++ [name], (dir ++ [name]).dropLast, destDir ++ [dest], destDir]⟩ := by
    rw [FileSystem.moveEntry, FileTree.moveTo, dif_pos hmovable]
  have hphysical : fs.tree.isDir ([] ++ destDir) = true := hdir
  have hmissing : fs.resolve false ⟨true, destDir ++ [dest]⟩ = .missing destDir dest [] := by
    rw [FileSystem.resolve_absolute, walk_physical destDir hphysical, List.nil_append,
      walk_lastName (isEntryName_of_proper hdest), if_pos hfree]
  obtain ⟨hentry, hends, hslash⟩ := entry_physical dir hname
  obtain ⟨hentry', hends', hslash'⟩ := entry_physical destDir (isEntryName_of_proper hdest)
  refine ⟨_, ?_, moveEntry_leaf hleaf hmove⟩
  rw [FileSystem.rename, if_neg (not_not.mpr ⟨hends, hends'⟩), hentry, lookup_link hname hlink]
  simp only [hslash, hslash', Bool.false_eq_true, or_self, and_false, if_false, hentry', hmissing]
  exact hmove

end Move

end LibSshpp.Posix
