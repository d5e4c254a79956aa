import LibSshpp.Posix.FileSystem

/-!
Files and their inodes. A file system is backed when every file in its tree has an inode;
no call takes an inode away, and what a call adds to the tree it adds with one.
-/

set_option autoImplicit false
set_option relaxedAutoImplicit false

namespace LibSshpp.Posix

/-- Every file has its inode. -/
def FileSystem.Backed (fs : FileSystem) : Prop :=
  ∀ loc ino, fs.tree.get loc = some (.file ino) → ino < fs.inodes.length

/-- No inode is gone, and the files are still backed. -/
structure KeepsInodes (before after : FileSystem) : Prop where
  count : before.inodes.length ≤ after.inodes.length
  backed : before.Backed → after.Backed

namespace KeepsInodes

variable {fs : FileSystem}

theorem refl (fs : FileSystem) : KeepsInodes fs fs := ⟨le_rfl, id⟩

theorem trans {middle after : FileSystem} (h : KeepsInodes fs middle)
    (hnext : KeepsInodes middle after) : KeepsInodes fs after :=
  ⟨h.count.trans hnext.count, fun hbacked ↦ hnext.backed (h.backed hbacked)⟩

/-- An edit of the tree that only takes away or moves. -/
theorem of_files {tree : FileTree}
    (hfiles : ∀ loc ino, tree.get loc = some (.file ino) →
      ∃ other, fs.tree.get other = some (.file ino)) :
    KeepsInodes fs { fs with tree := tree } := by
  refine ⟨le_rfl, fun hbacked loc ino hget ↦ ?_⟩
  obtain ⟨other, hother⟩ := hfiles loc ino hget
  exact hbacked other ino hother

theorem setData (ino : ℕ) (data : Bytes) : KeepsInodes fs (fs.setData ino data) := by
  have hlength : (fs.setData ino data).inodes.length = fs.inodes.length := List.length_set
  refine ⟨hlength.ge, fun hbacked loc other hget ↦ ?_⟩
  rw [hlength]
  exact hbacked loc other hget

/-- A new object has the last of the inodes. -/
theorem create {dir : Loc} {name : Name} {node : ℕ → Node} {mode : UInt32}
    (hnode : ∀ ino other, node ino = .file other → other = ino) {done : Done ℕ}
    (h : fs.create dir name node mode = .ok done) :
    KeepsInodes fs done.fs ∧ done.value < done.fs.inodes.length := by
  unfold FileSystem.create at h
  split at h
  · exact nomatch h
  · next tree hput =>
    rw [← Except.ok.inj h]
    have hlength : (fs.addInode { attr := fs.newAttr mode }).inodes.length =
        fs.inodes.length + 1 := List.length_append
    have hless : fs.inodes.length < (fs.addInode { attr := fs.newAttr mode }).inodes.length :=
      hlength ▸ Nat.lt_succ_self _
    refine ⟨⟨hless.le, fun hbacked loc ino hget ↦ ?_⟩, hless⟩
    have htree := FileTree.get_of_putAt hput loc
    split_ifs at htree with hloc
    · rw [hnode _ _ (Option.some.inj (htree.symm.trans hget))]
      exact hless
    · exact (hbacked loc ino (htree.symm.trans hget)).trans hless

theorem removeEntry {loc : Loc} {done : Done Unit} (h : fs.removeEntry loc = .ok done) :
    KeepsInodes fs done.fs := by
  unfold FileSystem.removeEntry at h
  split at h
  · exact nomatch h
  · next tree hremove =>
    rw [← Except.ok.inj h]
    refine of_files fun other ino hget ↦ ⟨other, ?_⟩
    rw [FileTree.get_of_removeLeaf hremove] at hget
    split_ifs at hget with hloc
    exact hget

theorem moveEntry {source dir : Loc} {name : Name} {done : Done Unit}
    (h : fs.moveEntry source dir name = .ok done) : KeepsInodes fs done.fs := by
  unfold FileSystem.moveEntry at h
  split at h
  · exact nomatch h
  · next tree hmove =>
    rw [← Except.ok.inj h]
    refine of_files fun loc ino hget ↦ ?_
    rw [FileTree.get_of_moveTo hmove] at hget
    split_ifs at hget with hinto
    · exact ⟨_, hget⟩
    · exact ⟨loc, hget⟩

theorem renameOver {source dest : Loc} {done : Done Unit}
    (h : fs.renameOver source dest = .ok done) : KeepsInodes fs done.fs := by
  unfold FileSystem.renameOver at h
  split_ifs at h
  · rw [← Except.ok.inj h]
    exact refl fs
  · split at h
    · exact nomatch h
    · next cleared hcleared => exact (removeEntry hcleared).trans (moveEntry h)

end KeepsInodes

namespace FileSystem

variable {fs : FileSystem}

theorem keepsInodes_openExisting {loc : Loc} {flags : OpenFlags} {done : Done OpenFile}
    (h : fs.openExisting loc flags = .ok done) :
    KeepsInodes fs done.fs ∧
      (fs.Backed → done.value.flags.access ≠ .readOnly →
        done.value.ino < done.fs.inodes.length) := by
  unfold openExisting at h
  by_cases hexcl : flags.creat = true ∧ flags.excl = true
  · rw [if_pos hexcl] at h
    exact nomatch h
  · rw [if_neg hexcl] at h
    split at h
    · exact nomatch h
    · split_ifs at h with hreads
      rw [← Except.ok.inj h]
      exact ⟨KeepsInodes.refl fs, fun _ haccess ↦ absurd hreads.1 haccess⟩
    · next ino hget =>
      have hkeeps : KeepsInodes fs (if flags.trunc then fs.setData ino [] else fs) := by
        split_ifs
        · exact KeepsInodes.setData ino []
        · exact KeepsInodes.refl fs
      rw [← Except.ok.inj h]
      exact ⟨hkeeps, fun hbacked _ ↦ (hbacked loc ino hget).trans_le hkeeps.count⟩
    · exact nomatch h

/-- What is opened for writing has its inode. -/
theorem keepsInodes_openFile {path : Path} {flags : OpenFlags} {mode : UInt32}
    {done : Done OpenFile} (h : fs.openFile path flags mode = .ok done) :
    KeepsInodes fs done.fs ∧
      (fs.Backed → done.value.flags.access ≠ .readOnly →
        done.value.ino < done.fs.inodes.length) := by
  unfold openFile at h
  split at h
  · exact keepsInodes_openExisting h
  · split_ifs at h
    split at h
    · exact nomatch h
    · next created hcreate =>
      rw [← Except.ok.inj h]
      obtain ⟨hkeeps, hless⟩ :=
        KeepsInodes.create (fun _ _ hnode ↦ (Node.file.inj hnode).symm) hcreate
      exact ⟨hkeeps, fun _ _ ↦ hless⟩
  · exact nomatch h

theorem keepsInodes_mkdir {path : Path} {mode : UInt32} {done : Done Unit}
    (h : fs.mkdir path mode = .ok done) : KeepsInodes fs done.fs := by
  unfold mkdir at h
  split at h
  · exact nomatch h
  · split at h
    · exact nomatch h
    · next created hcreate =>
      rw [← Except.ok.inj h]
      exact (KeepsInodes.create (fun _ _ hnode ↦ (Node.noConfusion hnode)) hcreate).1

theorem keepsInodes_symlink {target : Bytes} {path : Path} {done : Done Unit}
    (h : fs.symlink target path = .ok done) : KeepsInodes fs done.fs := by
  unfold symlink at h
  split_ifs at h with hempty htarget
  split at h
  · exact nomatch h
  · split at h
    · exact nomatch h
    · next tree hput =>
      rw [← Except.ok.inj h]
      refine KeepsInodes.of_files fun loc ino hget ↦ ⟨loc, ?_⟩
      rw [FileTree.get_of_putAt hput] at hget
      split_ifs at hget
      · exact nomatch hget
      · exact hget

theorem keepsInodes_unlink {path : Path} {done : Done Unit} (h : fs.unlink path = .ok done) :
    KeepsInodes fs done.fs := by
  unfold unlink at h
  split at h
  · exact nomatch h
  · split_ifs at h
    exact KeepsInodes.removeEntry h

theorem keepsInodes_rmdir {path : Path} {done : Done Unit} (h : fs.rmdir path = .ok done) :
    KeepsInodes fs done.fs := by
  unfold rmdir at h
  split_ifs at h
  split at h
  · exact nomatch h
  · split_ifs at h
    exact KeepsInodes.removeEntry h

theorem keepsInodes_rename {source dest : Path} {done : Done Unit}
    (h : fs.rename source dest = .ok done) : KeepsInodes fs done.fs := by
  unfold rename at h
  split_ifs at h
  split at h
  · exact nomatch h
  · split_ifs at h
    split at h
    · exact KeepsInodes.renameOver h
    · exact KeepsInodes.moveEntry h
    · exact nomatch h
    · exact nomatch h

/-- A write on a descriptor that was opened for writing, at an offset that is not negative. -/
theorem pwrite_of_writable {file : OpenFile} (data : Bytes) {offset : Int64}
    (haccess : file.flags.access ≠ .readOnly) (hoffset : ¬ offset < 0) :
    fs.pwrite file data offset =
      .ok ⟨data.length, fs.setData file.ino (overwrite (fs.inode file.ino).data
        (if file.flags.append then (fs.inode file.ino).data.length else offset.toNatClampNeg) data),
        [file.loc]⟩ := by
  rw [pwrite, if_neg haccess, if_neg hoffset]

theorem pwrite_eq_ok {file : OpenFile} {data : Bytes} {offset : Int64} {done : Done ℕ}
    (h : fs.pwrite file data offset = .ok done) :
    file.flags.access ≠ .readOnly ∧ ¬ offset < 0 := by
  unfold pwrite at h
  by_cases haccess : file.flags.access = .readOnly
  · rw [if_pos haccess] at h
    exact nomatch h
  · by_cases hoffset : offset < 0
    · rw [if_neg haccess, if_pos hoffset] at h
      exact nomatch h
    · exact ⟨haccess, hoffset⟩

theorem keepsInodes_pwrite {file : OpenFile} {data : Bytes} {offset : Int64} {done : Done ℕ}
    (h : fs.pwrite file data offset = .ok done) : KeepsInodes fs done.fs := by
  obtain ⟨haccess, hoffset⟩ := pwrite_eq_ok h
  rw [pwrite_of_writable data haccess hoffset] at h
  rw [← Except.ok.inj h]
  exact KeepsInodes.setData _ _

/-- What a file holds after its data was replaced. -/
theorem inode_setData {ino : ℕ} (h : ino < fs.inodes.length) (data : Bytes) (other : ℕ) :
    ((fs.setData ino data).inode other).data =
      if other = ino then data else (fs.inode other).data := by
  unfold setData inode
  by_cases heq : other = ino
  · subst heq
    rw [if_pos rfl, List.getD_eq_getElem?_getD, List.getElem?_set_self h, Option.getD_some]
  · rw [if_neg heq, List.getD_eq_getElem?_getD, List.getElem?_set_ne (Ne.symm heq),
      List.getD_eq_getElem?_getD]

end FileSystem

end LibSshpp.Posix
