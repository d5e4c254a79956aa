import LibSshpp.Posix.PathTexts
import LibSshpp.Sftp.DownloadExact

/-!
The test by which `try_download_tree` keeps a child below its destination. It compares
the texts of two results of `weakly_canonical`, of which only the second one's error
is looked at, while the file is then opened by the kernel, which follows links. The
two agree for every name of the destination that is not a link, and for most links;
how they come apart is listed here.
-/

set_option autoImplicit false
set_option relaxedAutoImplicit false

namespace LibSshpp

/-- Where the object is that a write through a path reaches or creates. -/
def Posix.Walk.written : Posix.Walk → Option Loc
  | .found loc => some loc
  | .missing dir name [] => some (dir ++ [name])
  | _ => none

namespace Sftp

open Posix Program

/-! ### The test on a file system -/

/-- A call of `weakly_canonical` that an error may strike besides. -/
def struck (fault : Option Errno) (result : Except Errno Path) : Except Errno Path :=
  match fault with
  | none => result
  | some error => .error error

/-- `local / name`. -/
def childOf (destination name : Bytes) : Path := (Path.ofBytes destination).join (.ofBytes name)

/-- The test of `try_download_tree` on the entry `name`, with the errors that strike its
two calls. -/
def letsThrough (fs : FileSystem) (rootFault childFault : Option Errno)
    (destination name : Bytes) : Bool :=
  staysBelow (struck rootFault (fs.weaklyCanonical (.ofBytes destination)))
    (struck childFault (fs.weaklyCanonical (childOf destination name)))

/-- The file system, beside the errors that strike the coming calls of
`weakly_canonical`. -/
def faultyDisk : TreeDisk (FileSystem × List (Option Errno)) where
  createDirectories path := fun (fs, faults) ↦
    let (result, fs) := fs.createDirectories path
    (result, fs, faults)
  weaklyCanonical path := fun (fs, faults) ↦
    (struck (faults.head?.getD none) (fs.weaklyCanonical path), fs, faults.tail)
  localFile path := fun (fs, faults) ↦ (fs.localFile path, fs, faults)
  storeFile path file := fun (fs, faults) ↦ ((), fs.storeFile path file, faults)

theorem downloadEntry_writes {σ : Type} (server : TreeServer σ) (disk : TreeDisk σ)
    (opts : TransferOptions) (remote : RemotePath) (path : Path) (entries : List Attributes)
    (run : TreeRun σ) :
    (downloadEntry server disk opts remote path entries run).2.writes =
      run.writes ++ [{ kind := .download, path, entries }] := rfl

/-- An entry that is a regular file is opened for writing exactly if the test lets it
through. -/
theorem downloadEntries_writes (server : TreeServer (FileSystem × List (Option Errno)))
    (opts : TransferOptions)
    (recurse : RemotePath → Path → List Attributes →
      StateM (TreeRun (FileSystem × List (Option Errno))) (Option (Result TreeStats)))
    (remote : RemotePath) (destination : Bytes) (entries : List Attributes) (entry : Attributes)
    (hname : isSafeEntryName entry.name = true) (hregular : entry.type = .regular)
    (fs : FileSystem) (rootFault childFault : Option Errno) (writes : List LocalWrite) :
    (downloadEntries server faultyDisk opts recurse remote (.ofBytes destination) entries [entry] {}
      { world := (fs, [rootFault, childFault]), writes }).2.writes =
        if letsThrough fs rootFault childFault destination entry.name then
          writes ++ [{ kind := .download, path := childOf destination entry.name
                       entries := entries ++ [entry] }]
        else writes := by
  have hroot : TreeRun.call (faultyDisk.weaklyCanonical (.ofBytes destination))
      { world := (fs, [rootFault, childFault]), writes } =
      (struck rootFault (fs.weaklyCanonical (.ofBytes destination)),
        { world := (fs, [childFault]), writes }) := rfl
  have hchild : TreeRun.call (faultyDisk.weaklyCanonical (childOf destination entry.name))
      { world := (fs, [childFault]), writes } =
      (struck childFault (fs.weaklyCanonical (childOf destination entry.name)),
        { world := (fs, []), writes }) := rfl
  rw [downloadEntries, if_neg (by rw [hname]; decide), bind_of_eq hroot, ← childOf,
    bind_of_eq hchild, ← letsThrough]
  by_cases hpass : letsThrough fs rootFault childFault destination entry.name = true
  · rw [if_neg (by rw [hpass]; decide), if_neg (by rw [hregular]; decide),
      if_neg (by rw [hregular]; decide), if_pos hregular, if_pos hpass]
    rcases hdownload : downloadEntry server faultyDisk opts (remote.join entry.name)
      (childOf destination entry.name) (entries ++ [entry]) { world := (fs, []), writes } with
      ⟨result, after⟩
    have hwrites := downloadEntry_writes server faultyDisk opts (remote.join entry.name)
      (childOf destination entry.name) (entries ++ [entry]) { world := (fs, []), writes }
    rw [hdownload] at hwrites
    rw [bind_of_eq hdownload]
    cases result <;> exact hwrites
  · rw [if_pos (Bool.not_eq_true _ ▸ hpass), if_neg hpass]
    rfl

/-! ### What the test is meant to ensure -/

/-- A child that is let through has a destination that was made canonical, and what is
written through its path lies in that directory. -/
def Contained (fs : FileSystem) (rootFault childFault : Option Errno)
    (destination name : Bytes) : Prop :=
  letsThrough fs rootFault childFault destination name = true →
    (∃ root, struck rootFault (fs.weaklyCanonical (.ofBytes destination)) = .ok root) ∧
      ∀ loc ∈ (fs.resolve true (childOf destination name)).written,
        ∃ dir, fs.resolve true (.ofBytes destination) = .found dir ∧ dir <+: loc

/-- How the test can be misled: the canonical path of the destination alone meets an
error, the destination is the empty path, or the name is a link in the destination
that dangles to a free name outside or leads to an object outside whose path merely
begins with the text of the destination. -/
inductive Misled (fs : FileSystem) (rootFault childFault : Option Errno)
    (destination name : Bytes) : Prop
  | rootFails (error : Errno) (fails : rootFault = some error) (survives : childFault = none)
    (readable : ∀ error, fs.resolve true (childOf destination name) = .failed error →
      FileSystem.isNotFound error = true)
  | noDestination (loc : Loc) (sound : rootFault = none ∧ childFault = none)
    (empty : destination = [])
    (written : (fs.resolve true (childOf destination name)).written = some loc)
  | dangling (dir other : Loc) (entry : Name) (target : LinkTarget) (attr : NodeAttr)
    (sound : rootFault = none ∧ childFault = none)
    (leads : fs.resolve true (.ofBytes destination) = .found dir)
    (link : fs.tree.get (dir ++ [name]) = some (.symlink target attr))
    (missing : fs.resolve true (childOf destination name) = .missing other entry [])
    (outside : ¬ dir <+: other)
  | namesake (dir loc : Loc) (target : LinkTarget) (attr : NodeAttr)
    (sound : rootFault = none ∧ childFault = none)
    (leads : fs.resolve true (.ofBytes destination) = .found dir)
    (link : fs.tree.get (dir ++ [name]) = some (.symlink target attr))
    (found : fs.resolve true (childOf destination name) = .found loc)
    (outside : ¬ dir <+: loc)
    (begins : (⟨true, dir⟩ : Path).text <+: (⟨true, loc⟩ : Path).text)

/-! ### Paths of children -/

section

variable {fs : FileSystem} {destination name : Bytes}

theorem childOf_eq (hname : SafeName name) : childOf destination name =
    ⟨(Path.ofBytes destination).absolute, (Path.ofBytes destination).entry.comps ++ [name]⟩ :=
  join_ofBytes hname _

variable (fs) in
/-- The walk of a child goes on from the destination. -/
theorem resolve_childOf (hne : destination ≠ []) (hname : SafeName name) :
    (fs.resolve true ⟨(Path.ofBytes destination).absolute,
        (Path.ofBytes destination).entry.comps⟩).Continues fs.tree true maxSymlinks [name]
      (fs.resolve true (childOf destination name)) := by
  rw [childOf_eq hname]
  exact resolve_continues fs (List.cons_ne_nil name []) (ofBytes_named hne)

/-- The destination is made canonical if the child is. -/
theorem root_isOk_of_child (hname : SafeName name)
    (h : ∃ canon, fs.weaklyCanonical (childOf destination name) = .ok canon) :
    ∃ root, fs.weaklyCanonical (.ofBytes destination) = .ok root := by
  rw [weaklyCanonical_isOk_iff] at h ⊢
  intro error hfailed
  by_cases hne : destination = []
  · rw [hne, FileSystem.resolve, if_pos ⟨rfl, .inl rfl⟩] at hfailed
    rw [← Walk.failed.inj hfailed]
    rfl
  have hchild := resolve_childOf fs hne hname
  rcases entry_comps_cases (Path.ofBytes destination) with hcomps | hcomps
  · rw [← hcomps, hfailed] at hchild
    exact h error hchild
  · have htrailing := resolve_continues fs (List.cons_ne_nil [] []) (ofBytes_named hne)
    rw [← hcomps, hfailed] at htrailing
    rcases hentry : fs.resolve true ⟨(Path.ofBytes destination).absolute,
      (Path.ofBytes destination).entry.comps⟩ with dir | ⟨dir, missing, rest⟩ | other
    · rw [hentry, Walk.Continues] at htrailing
      split_ifs at htrailing
      · obtain ⟨left, -, hwalk⟩ := htrailing
        rw [walk_idle (.inl rfl), walk_nil] at hwalk
        cases hwalk
      · rw [Walk.failed.inj htrailing]
        rfl
    · rw [hentry] at htrailing
      cases htrailing
    · rw [hentry] at htrailing hchild
      rw [Walk.failed.inj htrailing]
      exact h other hchild

/-- What is written through the path of a child lies below the destination unless the
child is a link. -/
theorem written_childOf {loc : Loc} (hne : destination ≠ []) (hname : SafeName name)
    (h : (fs.resolve true (childOf destination name)).written = some loc) :
    ∃ dir, fs.resolve true (.ofBytes destination) = .found dir ∧
      (dir <+: loc ∨ ∃ target attr, fs.tree.get (dir ++ [name]) = some (.symlink target attr)) := by
  have hproper := isEntryName_of_proper hname.proper
  have hchild := resolve_childOf fs hne hname
  rcases hentry : fs.resolve true ⟨(Path.ofBytes destination).absolute,
    (Path.ofBytes destination).entry.comps⟩ with dir | ⟨dir, missing, rest⟩ | error
  · rw [hentry, Walk.Continues] at hchild
    split_ifs at hchild with hdir
    · obtain ⟨left, -, hwalk⟩ := hchild
      refine ⟨dir, resolve_of_entry hentry hdir, ?_⟩
      rcases hget : fs.tree.get (dir ++ [name]) with _ | (ino | ino | ⟨target, attr⟩)
      · rw [hwalk, walk_absent hproper hget] at h
        exact .inl (Option.some.inj h ▸ List.prefix_append dir [name])
      · rw [hwalk, walk_dir hproper hget, walk_nil] at h
        exact .inl (Option.some.inj h ▸ List.prefix_append dir [name])
      · rw [hwalk, walk_file hproper hget, if_pos rfl] at h
        exact .inl (Option.some.inj h ▸ List.prefix_append dir [name])
      · exact .inr ⟨target, attr, rfl⟩
    · rw [hchild] at h
      cases h
  · rw [hentry, Walk.Continues] at hchild
    rw [hchild] at h
    cases rest <;> cases h
  · rw [hentry, Walk.Continues] at hchild
    rw [hchild] at h
    cases h

/-- A child that leads nowhere keeps its path below the destination. -/
theorem weaklyCanonical_childOf_of_missing {dir other : Loc} {entry : Name}
    (hname : SafeName name) (hleads : fs.resolve true (.ofBytes destination) = .found dir)
    (h : fs.resolve true (childOf destination name) = .missing other entry []) :
    fs.weaklyCanonical (childOf destination name) = .ok ⟨true, dir ++ [name]⟩ := by
  have hentry := resolve_entry (Path.ofBytes_comps_ne destination) hleads
  rw [childOf_eq hname] at h ⊢
  refine weaklyCanonical_of_dangling (isEntryName_of_proper hname.proper) hentry ?_
  rw [FileSystem.statusExists, h]

end

/-- A child of the empty path passes whenever its path can be made canonical. -/
theorem weaklyCanonical_ofBytes_nil (fs : FileSystem) :
    fs.weaklyCanonical (.ofBytes []) = .ok ⟨false, []⟩ := by
  have hpath : Path.ofBytes [] = ⟨false, []⟩ := rfl
  rw [hpath, FileSystem.weaklyCanonical, FileSystem.statusExists, FileSystem.resolve,
    if_pos ⟨rfl, .inl rfl⟩]
  rfl

theorem letsThrough_of_ok {fs : FileSystem} {destination name : Bytes} {root child : Path}
    (hroot : fs.weaklyCanonical (.ofBytes destination) = .ok root)
    (hchild : fs.weaklyCanonical (childOf destination name) = .ok child) :
    letsThrough fs none none destination name = true ↔ root.text <+: child.text := by
  rw [letsThrough, struck, struck, hroot, hchild, staysBelow, List.isPrefixOf_iff_prefix]

theorem child_isOk_of_letsThrough {fs : FileSystem} {rootFault childFault : Option Errno}
    {destination name : Bytes}
    (h : letsThrough fs rootFault childFault destination name = true) :
    childFault = none ∧ ∃ child, fs.weaklyCanonical (childOf destination name) = .ok child := by
  rcases hchild : struck childFault (fs.weaklyCanonical (childOf destination name)) with
    error | child
  · rw [letsThrough, hchild, staysBelow] at h
    cases h
  · cases childFault with
    | none => exact ⟨rfl, child, hchild⟩
    | some error => cases hchild

/-- A test that is misled lets the child through, and what is written is elsewhere. -/
theorem Misled.not_contained {fs : FileSystem} {rootFault childFault : Option Errno}
    {destination name : Bytes} (hname : SafeName name)
    (h : Misled fs rootFault childFault destination name) :
    ¬ Contained fs rootFault childFault destination name := by
  intro hcontained
  cases h with
  | rootFails error fails survives readable =>
    obtain ⟨child, hchild⟩ := weaklyCanonical_isOk_iff.mpr readable
    have hpass : letsThrough fs rootFault childFault destination name = true := by
      rw [letsThrough, fails, survives, struck, struck, hchild]
      rfl
    obtain ⟨⟨root, hroot⟩, -⟩ := hcontained hpass
    rw [fails] at hroot
    exact nomatch hroot
  | noDestination loc sound empty written =>
    obtain ⟨rfl, rfl⟩ := sound
    subst empty
    have hreadable : ∀ error, fs.resolve true (childOf [] name) = .failed error →
        FileSystem.isNotFound error = true := by
      intro error hfailed
      rw [hfailed] at written
      exact nomatch written
    obtain ⟨child, hchild⟩ := weaklyCanonical_isOk_iff.mpr hreadable
    have hpass := (letsThrough_of_ok (weaklyCanonical_ofBytes_nil fs) hchild).mpr List.nil_prefix
    obtain ⟨dir, hdir, -⟩ := (hcontained hpass).2 loc written
    exact starts_of_found hdir ⟨rfl, .inl rfl⟩
  | dangling dir other entry target attr sound leads link missing outside =>
    obtain ⟨rfl, rfl⟩ := sound
    have hroot := FileSystem.weaklyCanonical_of_found leads
    have hchild := weaklyCanonical_childOf_of_missing hname leads missing
    have hpass := (letsThrough_of_ok hroot hchild).mpr (text_isPrefix dir name)
    have hwritten : (fs.resolve true (childOf destination name)).written =
        some (other ++ [entry]) := by rw [missing]; rfl
    obtain ⟨found, hfound, hinside⟩ := (hcontained hpass).2 _ hwritten
    rw [leads] at hfound
    obtain rfl := Walk.found.inj hfound
    rcases List.prefix_concat_iff.mp hinside with hsame | hinside
    · have hfree := fs.resolve_sound true (childOf destination name)
      rw [missing] at hfree
      have hdir := FileTree.isDir_of_get_concat (link ▸ Option.some_ne_none _ :
        fs.tree.get (dir ++ [name]) ≠ none)
      rw [hsame] at hdir
      exact FileTree.get_ne_none_of_isDir hdir hfree.2.2
    · exact outside hinside
  | namesake dir loc target attr sound leads link found outside begins =>
    obtain ⟨rfl, rfl⟩ := sound
    have hroot := FileSystem.weaklyCanonical_of_found leads
    have hchild := FileSystem.weaklyCanonical_of_found found
    have hpass := (letsThrough_of_ok hroot hchild).mpr begins
    have hwritten : (fs.resolve true (childOf destination name)).written = some loc := by
      rw [found]
      rfl
    obtain ⟨other, hother, hinside⟩ := (hcontained hpass).2 _ hwritten
    rw [leads] at hother
    exact outside (Walk.found.inj hother ▸ hinside)

/-- The test keeps a child below its destination exactly if it is not misled in one of
four ways. -/
theorem contained_iff (fs : FileSystem) (rootFault childFault : Option Errno)
    (destination name : Bytes) (hname : isSafeEntryName name = true) :
    Contained fs rootFault childFault destination name ↔
      ¬ Misled fs rootFault childFault destination name := by
  have hsafe := isSafeEntryName_iff.mp hname
  refine ⟨fun hcontained hmisled ↦ hmisled.not_contained hsafe hcontained, fun hsound hpass ↦ ?_⟩
  obtain ⟨rfl, child, hchild⟩ := child_isOk_of_letsThrough hpass
  cases rootFault with
  | some error =>
    exact absurd (.rootFails error rfl rfl (weaklyCanonical_isOk_iff.mp ⟨child, hchild⟩)) hsound
  | none =>
    obtain ⟨root, hroot⟩ := root_isOk_of_child hsafe ⟨child, hchild⟩
    refine ⟨⟨root, hroot⟩, fun loc hloc ↦ ?_⟩
    by_contra houtside
    by_cases hne : destination = []
    · exact hsound (.noDestination loc ⟨rfl, rfl⟩ hne hloc)
    obtain ⟨dir, hdir, hinside | ⟨target, attr, hlink⟩⟩ := written_childOf hne hsafe hloc
    · exact houtside ⟨dir, hdir, hinside⟩
    rcases hwalk : fs.resolve true (childOf destination name) with
      found | ⟨other, entry, _ | ⟨comp, rest⟩⟩ | error <;> rw [hwalk] at hloc
    · obtain rfl := Option.some.inj hloc
      have hbegins := (letsThrough_of_ok (FileSystem.weaklyCanonical_of_found hdir)
        (FileSystem.weaklyCanonical_of_found hwalk)).mp hpass
      exact hsound (.namesake dir found target attr ⟨rfl, rfl⟩ hdir hlink hwalk
        (fun h ↦ houtside ⟨dir, hdir, h⟩) hbegins)
    · obtain rfl := Option.some.inj hloc
      exact hsound (.dangling dir other entry target attr ⟨rfl, rfl⟩ hdir hlink hwalk
        fun h ↦ houtside ⟨dir, hdir, h.trans (List.prefix_append other [entry])⟩)
    · exact nomatch hloc
    · exact nomatch hloc

/-- A disk with the directories `/d`, `/data` and `/etc`. In `/d` there are a file, a link
to `/data`, and a link to a name that is free in `/etc`. -/
def linkedDisk : FileSystem where
  tree := {
    nodes := ⟨[⟨[], .dir 0⟩, ⟨[ascii "d"], .dir 1⟩, ⟨[ascii "data"], .dir 2⟩,
      ⟨[ascii "etc"], .dir 3⟩, ⟨[ascii "d", ascii "f"], .file 4⟩,
      ⟨[ascii "d", ascii "s"], .symlink ⟨ascii "../data", by decide⟩ {}⟩,
      ⟨[ascii "d", ascii "x"], .symlink ⟨ascii "/etc/cron", by decide⟩ {}⟩],
      by unfold List.NodupKeys; decide⟩
    root := by decide
    parent := by decide
    proper := by decide }
  inodes := [{}, {}, {}, {}, {}]

/-- The file in `/d` is let through and is there. -/
theorem contained_file :
    isSafeEntryName (ascii "f") = true ∧
      Contained linkedDisk none none (ascii "/d") (ascii "f") := by
  have hname : isSafeEntryName (ascii "f") = true := by decide +kernel
  refine ⟨hname, (contained_iff linkedDisk none none (ascii "/d") (ascii "f") hname).mpr ?_⟩
  have hroot : linkedDisk.resolve true (.ofBytes (ascii "/d")) = .found [ascii "d"] := by
    decide +kernel
  have hfile : linkedDisk.tree.get ([ascii "d"] ++ [ascii "f"]) = some (.file 4) := by
    decide +kernel
  have hlink : ∀ dir target attr, linkedDisk.resolve true (.ofBytes (ascii "/d")) = .found dir →
      linkedDisk.tree.get (dir ++ [ascii "f"]) ≠ some (.symlink target attr) := by
    intro dir target attr hdir hget
    rw [hroot] at hdir
    rw [← Walk.found.inj hdir, hfile] at hget
    exact nomatch hget
  intro hmisled
  cases hmisled with
  | rootFails error fails => exact nomatch fails
  | noDestination loc sound empty => exact nomatch empty
  | dangling dir other entry target attr sound leads link => exact hlink dir target attr leads link
  | namesake dir loc target attr sound leads link => exact hlink dir target attr leads link

/-- The link that dangles is let through, and the file is created in `/etc`; so is the
link to `/data`, whose path begins with `/d`; and so is every name while the path of the
destination cannot be made canonical. -/
theorem linkedDisk_not_contained :
    (letsThrough linkedDisk none none (ascii "/d") (ascii "x") = true ∧
      (linkedDisk.resolve true (childOf (ascii "/d") (ascii "x"))).written =
        some [ascii "etc", ascii "cron"] ∧
      ¬ Contained linkedDisk none none (ascii "/d") (ascii "x")) ∧
    ¬ Contained linkedDisk none none (ascii "/d") (ascii "s") ∧
    ¬ Contained linkedDisk (some .eio) none (ascii "/d") (ascii "f") := by
  have hroot : linkedDisk.resolve true (.ofBytes (ascii "/d")) = .found [ascii "d"] := by
    decide +kernel
  have hdangling : letsThrough linkedDisk none none (ascii "/d") (ascii "x") = true := by
    decide +kernel
  have hcreated : (linkedDisk.resolve true (childOf (ascii "/d") (ascii "x"))).written =
      some [ascii "etc", ascii "cron"] := by decide +kernel
  have hnamesake : letsThrough linkedDisk none none (ascii "/d") (ascii "s") = true := by
    decide +kernel
  have hfound : (linkedDisk.resolve true (childOf (ascii "/d") (ascii "s"))).written =
      some [ascii "data"] := by decide +kernel
  have hlost : letsThrough linkedDisk (some .eio) none (ascii "/d") (ascii "f") = true := by
    decide +kernel
  refine ⟨⟨hdangling, hcreated, fun hcontained ↦ ?_⟩, fun hcontained ↦ ?_, fun hcontained ↦ ?_⟩
  · obtain ⟨dir, hdir, hinside⟩ := (hcontained hdangling).2 _ hcreated
    rw [hroot] at hdir
    rw [← Walk.found.inj hdir] at hinside
    exact absurd hinside (by decide +kernel)
  · obtain ⟨dir, hdir, hinside⟩ := (hcontained hnamesake).2 _ hfound
    rw [hroot] at hdir
    rw [← Walk.found.inj hdir] at hinside
    exact absurd hinside (by decide +kernel)
  · obtain ⟨⟨root, hroot⟩, -⟩ := hcontained hlost
    exact nomatch hroot

end Sftp

end LibSshpp
