import LibSshpp.Posix.BackedFiles
import LibSshpp.Posix.NewObjects

/-!
What `open` opens. The path of a regular file leads to the inode of its descriptor, before and
after a new file is created for it, and apart from that file nothing else changes. What is
written later goes to the same inode, so that it is what the path leads to then.
-/

set_option autoImplicit false
set_option relaxedAutoImplicit false

namespace LibSshpp.Posix

/-- The path leads to a regular file with this inode. -/
def FileSystem.IsFile (fs : FileSystem) (path : Path) (ino : ℕ) : Prop :=
  ∃ loc, fs.resolve true path = .found loc ∧ fs.tree.get loc = some (.file ino)

/-- What the regular file holds that a path leads to. -/
def FileSystem.fileAt (fs : FileSystem) (path : Path) : Option Bytes :=
  match fs.lookup true path with
  | .error _ => none
  | .ok loc =>
    match fs.tree.get loc with
    | some (.file ino) => some (fs.inode ino).data
    | _ => none

/-- Nothing has changed but one file, which may be new at its location. -/
structure OnlyFile (loc : Loc) (ino : ℕ) (before after : FileSystem) : Prop where
  tree : ∀ other, after.tree.get other = before.tree.get other ∨
    (other = loc ∧ before.tree.get other = none ∧ after.tree.get other = some (.file ino))
  inode : ∀ other, other ≠ ino → other < before.inodes.length →
    after.inode other = before.inode other
  count : before.inodes.length ≤ after.inodes.length
  cwd : after.cwd = before.cwd

variable {fs before middle after : FileSystem} {loc dir : Loc} {name : Name} {ino : ℕ} {path : Path}

theorem FileSystem.IsFile.fileAt (h : fs.IsFile path ino) :
    fs.fileAt path = some (fs.inode ino).data := by
  obtain ⟨loc, hfound, hget⟩ := h
  rw [FileSystem.fileAt, FileSystem.lookup, hfound]
  simp only [hget]

theorem FileSystem.isFile_of_fileAt {data : Bytes} (h : fs.fileAt path = some data) :
    ∃ ino, fs.IsFile path ino ∧ (fs.inode ino).data = data := by
  unfold FileSystem.fileAt at h
  split at h
  · exact nomatch h
  · next loc hlookup =>
    split at h
    · next ino hget =>
      exact ⟨ino, ⟨loc, FileSystem.lookup_eq_ok_iff.mp hlookup, hget⟩, Option.some.inj h⟩
    · exact nomatch h

namespace OnlyFile

theorem refl (loc : Loc) (ino : ℕ) (fs : FileSystem) : OnlyFile loc ino fs fs :=
  ⟨fun _ ↦ .inl rfl, fun _ _ _ ↦ rfl, le_rfl, rfl⟩

theorem trans (h : OnlyFile loc ino before middle) (hnext : OnlyFile loc ino middle after) :
    OnlyFile loc ino before after where
  tree other := by
    rcases h.tree other with hsame | ⟨hloc, hnone, hfile⟩
    · rw [← hsame]
      exact hnext.tree other
    · rcases hnext.tree other with hsame | ⟨-, hfree, -⟩
      · exact .inr ⟨hloc, hnone, hsame.trans hfile⟩
      · exact nomatch hfile.symm.trans hfree
  inode other hne hother :=
    (hnext.inode other hne (hother.trans_le h.count)).trans (h.inode other hne hother)
  count := h.count.trans hnext.count
  cwd := hnext.cwd.trans h.cwd

theorem kept (h : OnlyFile loc ino before after) (other : Loc) (node : Node)
    (hget : before.tree.get other = some node) : after.tree.get other = some node := by
  rcases h.tree other with hsame | ⟨-, hnone, -⟩
  · exact hsame.trans hget
  · exact nomatch hget.symm.trans hnone

theorem isDir (h : OnlyFile loc ino before after) (other : Loc) :
    after.tree.isDir other = before.tree.isDir other := by
  rcases h.tree other with hsame | ⟨-, hnone, hfile⟩
  · rw [FileTree.isDir, FileTree.isDir, hsame]
  · rw [FileTree.isDir, FileTree.isDir, hnone, hfile]
    rfl

/-- A path that leads somewhere still leads there. -/
theorem resolve (h : OnlyFile loc ino before after) {follow : Bool} {found : Loc}
    (hfound : before.resolve follow path = .found found) :
    after.resolve follow path = .found found := by
  have hstarts := starts_of_found hfound
  rw [FileSystem.resolve, if_neg hstarts] at hfound
  rw [FileSystem.resolve, h.isDir, h.cwd, if_neg hstarts]
  exact walk_found_mono h.kept hfound

theorem isFile (h : OnlyFile loc ino before after) {other : ℕ} (hfile : before.IsFile path other) :
    after.IsFile path other := by
  obtain ⟨found, hfound, hget⟩ := hfile
  exact ⟨found, h.resolve hfound, h.kept found _ hget⟩

/-- Where the file is a new one, the files that were there have not changed. -/
theorem fileAt (h : OnlyFile loc ino before after) (hbacked : before.Backed)
    (hnew : before.inodes.length ≤ ino) {data : Bytes} (hfile : before.fileAt path = some data) :
    after.fileAt path = some data := by
  obtain ⟨other, hother, rfl⟩ := FileSystem.isFile_of_fileAt hfile
  have hafter := h.isFile hother
  obtain ⟨found, -, hget⟩ := hother
  have hless := hbacked found other hget
  rw [hafter.fileAt, h.inode other (hless.trans_le hnew).ne hless]

theorem setData (loc : Loc) (ino : ℕ) (fs : FileSystem) (data : Bytes) :
    OnlyFile loc ino fs (fs.setData ino data) where
  tree _ := .inl rfl
  inode other hne _ := by
    simp [FileSystem.inode, FileSystem.setData, List.getElem?_set_ne (Ne.symm hne)]
  count := List.length_set.ge
  cwd := rfl

end OnlyFile

/-! ### Creating a file -/

/-- A walk to a free name ends at the file that is created there. -/
theorem walk_of_created {before after : FileTree} {links : ℕ} {cur : Loc} {comps : List Name}
    (hkept : ∀ loc node, before.get loc = some node → after.get loc = some node)
    (hmade : after.get (dir ++ [name]) = some (.file ino))
    (h : walk before true links cur comps = .missing dir name []) :
    walk after true links cur comps = .found (dir ++ [name]) := by
  induction links, cur, comps using walk_induction before true with
  | nil links cur =>
    rw [walk_nil] at h
    cases h
  | idle links cur comp rest hidle ih =>
    rw [walk_idle hidle] at h ⊢
    exact ih h
  | up links cur rest ih =>
    rw [walk_dotdot] at h ⊢
    exact ih h
  | absent links cur comp rest hentry hget =>
    rw [walk_absent hentry hget] at h
    obtain ⟨rfl, rfl, rfl⟩ := Walk.missing.inj h
    rw [walk_file hentry hmade, if_pos rfl]
  | dir links cur comp rest ino hentry hget ih =>
    rw [walk_dir hentry hget] at h
    rw [walk_dir hentry (hkept _ _ hget)]
    exact ih h
  | file links cur comp rest ino hentry hget =>
    rw [walk_file hentry hget] at h
    split_ifs at h
  | kept links cur comp target attr hentry hget hfollow =>
    cases hfollow
  | exhausted cur comp rest target attr hentry hget hgo =>
    rw [walk_link_exhausted hentry hget hgo] at h
    cases h
  | link links cur comp rest target attr hentry hget hgo ih =>
    rw [walk_link hentry hget hgo] at h
    rw [walk_link hentry (hkept _ _ hget) hgo]
    exact ih h

/-- A path to a free name leads to the file that is created there. -/
theorem OnlyFile.resolve_created (h : OnlyFile loc ino before after)
    (hmissing : before.resolve true path = .missing dir name [])
    (hmade : after.tree.get (dir ++ [name]) = some (.file ino)) :
    after.resolve true path = .found (dir ++ [name]) := by
  have hstarts : ¬ (path.absolute = false ∧
      (path.comps = [] ∨ before.tree.isDir before.cwd = false)) := by
    intro hnowhere
    rw [FileSystem.resolve, if_pos hnowhere] at hmissing
    cases hmissing
  rw [FileSystem.resolve, if_neg hstarts] at hmissing
  rw [FileSystem.resolve, h.isDir, h.cwd, if_neg hstarts]
  exact walk_of_created h.kept hmade hmissing

/-- What is created is a new, empty file. -/
theorem onlyFile_of_create {mode : UInt32} {done : Done ℕ}
    (h : fs.create dir name .file mode = .ok done) :
    done.value = fs.inodes.length ∧ fs.tree.get (dir ++ [name]) = none ∧
      done.fs.tree.get (dir ++ [name]) = some (.file done.value) ∧
      (done.fs.inode done.value).data = [] ∧
      OnlyFile (dir ++ [name]) done.value fs done.fs := by
  unfold FileSystem.create at h
  split at h
  · cases h
  · next tree hput =>
    obtain rfl := Except.ok.inj h
    have hget := FileTree.get_of_putAt hput
    have hfree : fs.tree.get (dir ++ [name]) = none := by
      by_contra hfull
      rw [FileTree.putAt, dif_neg fun hall ↦ hfull hall.2.1] at hput
      cases hput
    refine ⟨rfl, hfree, (hget _).trans (if_pos rfl), ?_, ?_, ?_, ?_, rfl⟩
    · simp [FileSystem.inode, FileSystem.addInode]
    · intro other
      by_cases hother : other = dir ++ [name]
      · exact .inr ⟨hother, hother ▸ hfree, (hget other).trans (if_pos hother)⟩
      · exact .inl ((hget other).trans (if_neg hother))
    · intro other hne hother
      simp [FileSystem.inode, FileSystem.addInode, List.getElem?_append_left hother]
    · simp [FileSystem.addInode]

/-! ### Opening a file -/

/-- What is known of a regular file once it is open. -/
structure OpensFileAt (fs : FileSystem) (path : Path) (flags : OpenFlags) (done : Done OpenFile) :
    Prop where
  found : done.fs.resolve true path = .found done.value.loc
  get : done.fs.tree.get done.value.loc = some (.file done.value.ino)
  only : OnlyFile done.value.loc done.value.ino fs done.fs
  emptied : fs.Backed → flags.creat = true → flags.trunc = true ∨ flags.excl = true →
    (done.fs.inode done.value.ino).data = []
  created : flags.creat = true → flags.excl = true →
    fs.tree.get done.value.loc = none ∧ done.value.ino = fs.inodes.length

theorem opensFileAt_existing {flags : OpenFlags} {done : Done OpenFile}
    (hfound : fs.resolve (!(flags.creat && flags.excl)) path = .found loc)
    (h : fs.openExisting loc flags = .ok done) (hfile : done.value.isDir = false) :
    OpensFileAt fs path flags done := by
  unfold FileSystem.openExisting at h
  by_cases hexcl : flags.creat = true ∧ flags.excl = true
  · rw [if_pos hexcl] at h
    cases h
  rw [if_neg hexcl] at h
  have hfollow : (!(flags.creat && flags.excl)) = true := by
    rw [Bool.not_eq_true', ← Bool.not_eq_true, Bool.and_eq_true]
    exact hexcl
  rw [hfollow] at hfound
  split at h
  · cases h
  · split_ifs at h
    obtain rfl := Except.ok.inj h
    cases hfile
  · next ino hget =>
    obtain rfl := Except.ok.inj h
    have honly : OnlyFile loc ino fs (if flags.trunc then fs.setData ino [] else fs) := by
      split_ifs
      · exact OnlyFile.setData loc ino fs []
      · exact OnlyFile.refl loc ino fs
    refine ⟨honly.resolve hfound, honly.kept loc _ hget, honly, fun hbacked hcreat hfresh ↦ ?_,
      fun hcreat hexcl' ↦ absurd ⟨hcreat, hexcl'⟩ hexcl⟩
    have htrunc : flags.trunc = true := hfresh.resolve_right fun hexcl' ↦ hexcl ⟨hcreat, hexcl'⟩
    dsimp only
    rw [if_pos htrunc, FileSystem.inode_setData (hbacked loc ino hget), if_pos rfl]
  · cases h

theorem opensFileAt_of_openFile {flags : OpenFlags} {mode : UInt32} {done : Done OpenFile}
    (h : fs.openFile path flags mode = .ok done) (hfile : done.value.isDir = false) :
    OpensFileAt fs path flags done := by
  unfold FileSystem.openFile at h
  split at h
  · next hfound => exact opensFileAt_existing hfound h hfile
  · next dir name rest hmissing =>
    split_ifs at h with hcreat
    split at h
    · cases h
    · next created hcreate =>
      obtain rfl := Except.ok.inj h
      obtain ⟨hino, hfree, hget, hempty, honly⟩ := onlyFile_of_create hcreate
      rw [hcreat.2] at hmissing
      have hfollow : fs.resolve true path = .missing dir name [] := by
        cases hfollows : !(flags.creat && flags.excl) with
        | true => rwa [hfollows] at hmissing
        | false =>
          rw [hfollows] at hmissing
          exact resolve_follow_of_missing hmissing
      exact ⟨honly.resolve_created hfollow hget, hget, honly, fun _ _ _ ↦ hempty,
        fun _ _ ↦ ⟨hfree, hino⟩⟩
  · cases h

/-- What may be created is no directory. -/
theorem isFile_of_creat {flags : OpenFlags} {mode : UInt32} {done : Done OpenFile}
    (h : fs.openFile path flags mode = .ok done) (hcreat : flags.creat = true) :
    done.value.isDir = false := by
  unfold FileSystem.openFile at h
  split at h
  · unfold FileSystem.openExisting at h
    by_cases hexcl : flags.creat = true ∧ flags.excl = true
    · rw [if_pos hexcl] at h
      cases h
    · rw [if_neg hexcl] at h
      split at h
      · cases h
      · split_ifs at h with hplain
        exact Bool.noConfusion (hcreat.symm.trans hplain.2.1)
      · rw [← Except.ok.inj h]
      · cases h
  · split_ifs at h
    split at h
    · cases h
    · rw [← Except.ok.inj h]
  · cases h

/-- The descriptor keeps the flags it was opened with. -/
theorem flags_of_openFile {flags : OpenFlags} {mode : UInt32} {done : Done OpenFile}
    (h : fs.openFile path flags mode = .ok done) : done.value.flags = flags := by
  unfold FileSystem.openFile at h
  split at h
  · unfold FileSystem.openExisting at h
    by_cases hexcl : flags.creat = true ∧ flags.excl = true
    · rw [if_pos hexcl] at h
      cases h
    · rw [if_neg hexcl] at h
      split at h
      · cases h
      · split_ifs at h
        rw [← Except.ok.inj h]
      · rw [← Except.ok.inj h]
      · cases h
  · split_ifs at h
    split at h
    · cases h
    · rw [← Except.ok.inj h]
  · cases h

/-- A file that is neither created nor truncated is opened as it is. -/
theorem fs_of_openFile {flags : OpenFlags} {mode : UInt32} {done : Done OpenFile}
    (h : fs.openFile path flags mode = .ok done) (hcreat : flags.creat = false)
    (htrunc : flags.trunc = false) : done.fs = fs := by
  unfold FileSystem.openFile at h
  split at h
  · unfold FileSystem.openExisting at h
    have hexcl : ¬ (flags.creat = true ∧ flags.excl = true) :=
      fun hboth ↦ Bool.noConfusion (hcreat.symm.trans hboth.1)
    rw [if_neg hexcl] at h
    split at h
    · cases h
    · split_ifs at h
      rw [← Except.ok.inj h]
    · rw [← Except.ok.inj h]
      simp only [htrunc, Bool.false_eq_true, if_false]
    · cases h
  · split_ifs at h with hnew
    exact Bool.noConfusion (hcreat.symm.trans hnew.1)
  · cases h

theorem OpensFileAt.isFile {flags : OpenFlags} {done : Done OpenFile}
    (h : OpensFileAt fs path flags done) : done.fs.IsFile path done.value.ino :=
  ⟨done.value.loc, h.found, h.get⟩

/-- There was no file where one was created with O_EXCL. -/
theorem OpensFileAt.fileAt_of_excl {flags : OpenFlags} {done : Done OpenFile}
    (h : OpensFileAt fs path flags done) (hcreat : flags.creat = true) (hexcl : flags.excl = true) :
    fs.fileAt path = none := by
  cases hfile : fs.fileAt path with
  | none => rfl
  | some data =>
    obtain ⟨ino, ⟨loc, hfound, hget⟩, -⟩ := FileSystem.isFile_of_fileAt hfile
    obtain rfl := Walk.found.inj ((h.only.resolve hfound).symm.trans h.found)
    exact nomatch hget.symm.trans (h.created hcreat hexcl).1

/-- A regular file can be opened as it is. -/
theorem FileSystem.IsFile.openFile (h : fs.IsFile path ino) {flags : OpenFlags}
    (hcreat : flags.creat = false) (htrunc : flags.trunc = false) (mode : UInt32) :
    ∃ loc, fs.openFile path flags mode = .ok ⟨⟨loc, ino, false, flags⟩, fs, [loc]⟩ := by
  obtain ⟨loc, hfound, hget⟩ := h
  refine ⟨loc, ?_⟩
  have hexcl : ¬ (flags.creat = true ∧ flags.excl = true) :=
    fun hboth ↦ Bool.noConfusion (hcreat.symm.trans hboth.1)
  have hfollow : (!(flags.creat && flags.excl)) = true := by rw [hcreat]; rfl
  unfold FileSystem.openFile
  rw [hfollow, hfound]
  simp only [FileSystem.openExisting, if_neg hexcl, hget, htrunc, Bool.false_eq_true, if_false]

theorem FileSystem.IsFile.stat (h : fs.IsFile path ino) :
    ∃ loc, fs.stat path = .ok ⟨fs.statInode false ino, fs, [loc]⟩ := by
  obtain ⟨loc, hfound, hget⟩ := h
  refine ⟨loc, ?_⟩
  rw [FileSystem.stat, FileSystem.statPath, FileSystem.lookup, hfound]
  simp only [hget]
  rfl

end LibSshpp.Posix
