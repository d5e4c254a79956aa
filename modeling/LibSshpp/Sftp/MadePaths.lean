import LibSshpp.Posix.PathTexts
import LibSshpp.Sftp.MakeDirectories

/-!
What one client's call of `Sftp::try_mkdir_p` leaves behind: it adds directories at
beginnings of its path and changes nothing else, and after a success a second call finds
nothing to do. That all of the path is directories then is another matter, because a level
that exists is passed whatever it is.
-/

set_option autoImplicit false
set_option relaxedAutoImplicit false

namespace LibSshpp.Sftp

open Posix Program

/-! ### What a call is to do -/

/-- The second file system is the first one with new directories, each at one of these
paths. -/
structure OnlyMakes (paths : Bytes → Prop) (before after : FileSystem) : Prop where
  kept : ∀ loc node, before.tree.get loc = some node → after.tree.get loc = some node
  made : ∀ loc, after.tree.get loc ≠ before.tree.get loc →
    after.tree.isDir loc = true ∧
      ∃ path, paths path ∧ after.resolve true (requestPath path) = .found loc
  count : before.inodes.length ≤ after.inodes.length
  inode : ∀ ino < before.inodes.length, after.inode ino = before.inode ino
  others : after = { before with tree := after.tree, inodes := after.inodes }

/-- The changes of a call are new directories at beginnings of its path; after a success all
beginnings are directories, and another call succeeds and changes nothing. -/
structure MakesPath (path : Bytes) (perms : UInt32) (server : MkdirServer) : Prop where
  changes : OnlyMakes (TextPrefix · path) server.fs (tryMkdirP path perms server).2.fs
  directories : (tryMkdirP path perms server).1 = .ok () → ∀ first, TextPrefix first path →
    IsDirectory first (tryMkdirP path perms server).2
  again : (tryMkdirP path perms server).1 = .ok () →
    tryMkdirP path perms (tryMkdirP path perms server).2 =
      (.ok (), (tryMkdirP path perms server).2)

/-- When the loop comes to the last level it finds there an object that is no directory. -/
def PassesOther (path : Bytes) (perms : UInt32) (server : MkdirServer) : Prop :=
  ∃ before last, levels path = before ++ [last] ∧
    (makeLevels perms before server).1 = .ok () ∧
    ∃ loc, (makeLevels perms before server).2.fs.resolve true (requestPath last) = .found loc ∧
      (makeLevels perms before server).2.fs.tree.isDir loc = false

/-! ### The levels of a path -/

/-- The value of `current` after one more segment. -/
theorem nextLevel_names (current : Bytes) {segment : Bytes} (hne : segment ≠ [])
    (hslash : 0x2f ∉ segment) :
    let next :=
      (if current ≠ [] ∧ current.getLast? ≠ some 0x2f then current ++ [0x2f] else current) ++
        segment
    pathNames next = pathNames current ++ [segment] ∧
      (next.head? = some 0x2f ↔ current.head? = some 0x2f) := by
  have hsegment := pathNames_of_notMem hne hslash
  dsimp only
  by_cases hcurrent : current = []
  · have hhead : segment.head? ≠ some 0x2f := fun h ↦ hslash (List.mem_of_head? h)
    rw [if_neg (fun h ↦ h.1 hcurrent), hcurrent, List.nil_append, hsegment]
    exact ⟨rfl, fun h ↦ absurd h hhead, fun h ↦ nomatch h⟩
  by_cases hlast : current.getLast? = some 0x2f
  · obtain ⟨upper, rfl⟩ := List.getLast?_eq_some_iff.mp hlast
    rw [if_neg (fun h ↦ h.2 hlast), List.head?_append_of_ne_nil _ hcurrent, List.append_assoc,
      List.singleton_append, pathNames_append_slash, pathNames_append_slash, hsegment]
    exact ⟨by rw [List.append_assoc]; rfl, Iff.rfl⟩
  · rw [if_pos ⟨hcurrent, hlast⟩, List.append_assoc, List.singleton_append,
      pathNames_append_slash, hsegment, List.head?_append_of_ne_nil _ hcurrent]
    exact ⟨rfl, Iff.rfl⟩

/-- The levels go on from `current` by the names, one after the other. -/
theorem levelsFrom_names {level : Bytes} (names : List Name) :
    ∀ {current : Bytes}, (∀ name ∈ names, name ≠ [] ∧ 0x2f ∉ name) →
      level ∈ levelsFrom current names →
      ∃ taken, taken ≠ [] ∧ taken <+: names ∧ pathNames level = pathNames current ++ taken ∧
        (level.head? = some 0x2f ↔ current.head? = some 0x2f) := by
  induction names with
  | nil => exact fun _ h ↦ absurd h List.not_mem_nil
  | cons name names ih =>
    intro current hnames h
    obtain ⟨hne, hslash⟩ := hnames name List.mem_cons_self
    obtain ⟨hnext, hhead⟩ := nextLevel_names current hne hslash
    rw [levelsFrom] at h
    rcases List.mem_cons.mp h with rfl | hlater
    · exact ⟨[name], List.cons_ne_nil _ _, ⟨names, rfl⟩, hnext, hhead⟩
    · obtain ⟨taken, htaken, hprefix, hlevel, hhead'⟩ :=
        ih (fun other hother ↦ hnames other (List.mem_cons_of_mem _ hother)) hlater
      refine ⟨name :: taken, List.cons_ne_nil _ _, List.cons_prefix_cons.mpr ⟨rfl, hprefix⟩, ?_,
        hhead'.trans hhead⟩
      rw [hlevel, hnext, List.append_assoc, List.singleton_append]

theorem levelsFrom_last {last : Bytes} (names : List Name) :
    ∀ {current : Bytes} {before : List Bytes}, (∀ name ∈ names, name ≠ [] ∧ 0x2f ∉ name) →
      levelsFrom current names = before ++ [last] →
      pathNames last = pathNames current ++ names := by
  induction names with
  | nil => exact fun _ h ↦ absurd h.symm (List.append_ne_nil_of_right_ne_nil _ (by simp))
  | cons name names ih =>
    intro current before hnames h
    obtain ⟨hne, hslash⟩ := hnames name List.mem_cons_self
    obtain ⟨hnext, -⟩ := nextLevel_names current hne hslash
    rw [levelsFrom] at h
    cases before with
    | nil =>
      obtain ⟨rfl, hnil⟩ := List.cons.inj h
      cases names with
      | nil => exact hnext
      | cons other names => exact nomatch hnil
    | cons first before =>
      have hlater := ih (fun other hother ↦ hnames other (List.mem_cons_of_mem _ hother))
        (List.cons.inj h).2
      rw [hlater, hnext, List.append_assoc, List.singleton_append]

theorem levels_start (path : Bytes) :
    pathNames (if path.head? = some 0x2f then [0x2f] else []) = [] ∧
      ((if path.head? = some 0x2f then [0x2f] else [] : Bytes).head? = some 0x2f ↔
        path.head? = some 0x2f) := by
  split_ifs with h
  · exact ⟨rfl, iff_of_true rfl h⟩
  · exact ⟨rfl, iff_of_false (fun hnil ↦ nomatch hnil) h⟩

/-- What a level is to its path: a beginning of the names from the same place on. -/
theorem mem_levels {path level : Bytes} (h : level ∈ levels path) :
    pathNames level ≠ [] ∧ pathNames level <+: pathNames path ∧
      (level.head? = some 0x2f ↔ path.head? = some 0x2f) := by
  obtain ⟨hstart, hhead⟩ := levels_start path
  obtain ⟨taken, hne, hprefix, hlevel, hhead'⟩ := levelsFrom_names _ (fun _ ↦ mem_pathNames) h
  rw [hlevel, hstart, List.nil_append]
  exact ⟨hne, hprefix, hhead'.trans hhead⟩

theorem pathNames_last {path last : Bytes} {before : List Bytes}
    (h : levels path = before ++ [last]) : pathNames last = pathNames path := by
  have hlast := levelsFrom_last (pathNames path) (fun _ ↦ mem_pathNames) h
  rwa [(levels_start path).1, List.nil_append] at hlast

theorem pathNames_of_levels_nil {path : Bytes} (h : levels path = []) : pathNames path = [] := by
  rcases hnames : pathNames path with _ | ⟨name, rest⟩
  · rfl
  · have hlevels : levels path =
        levelsFrom (if path.head? = some 0x2f then [0x2f] else []) (pathNames path) := rfl
    rw [hnames, levelsFrom] at hlevels
    exact absurd (h.symm.trans hlevels) (List.cons_ne_nil _ _).symm

/-! ### Requests about beginnings of a path -/

theorem requestPath_entry (path : Bytes) :
    (requestPath path).entry.comps = pathNames (cString path) := ofBytes_entry _

theorem requestPath_absolute (path : Bytes) :
    (requestPath path).absolute = decide (path.head? = some 0x2f) := by
  rw [requestPath, ofBytes_absolute]
  cases path with
  | nil => rfl
  | cons byte rest =>
    by_cases hnul : byte = 0
    · rw [hnul]
      rfl
    · rw [cString, List.takeWhile_cons_of_pos (by simp [hnul])]
      rfl

section Requests

variable {first path : Bytes} {server : MkdirServer} {fs : FileSystem}

/-- Where a request leads, by the names a callee sees of its path. -/
theorem resolve_requestPath {loc : Loc} (h : fs.resolve true (requestPath path) = .found loc) :
    fs.resolve true ⟨decide (path.head? = some 0x2f), pathNames (cString path)⟩ = .found loc := by
  have hentry : fs.resolve true ⟨(requestPath path).absolute, (requestPath path).entry.comps⟩ =
      .found loc := resolve_entry (Path.ofBytes_comps_ne (cString path)) h
  rwa [requestPath_absolute, requestPath_entry] at hentry

theorem resolve_requestPath_of_dir {loc : Loc}
    (h : fs.resolve true ⟨decide (path.head? = some 0x2f), pathNames (cString path)⟩ = .found loc)
    (hdir : fs.tree.isDir loc = true) : fs.resolve true (requestPath path) = .found loc := by
  refine resolve_of_entry ?_ hdir
  rwa [requestPath_absolute, requestPath_entry]

/-- Paths of the same names from the same place on lead to the same directory. -/
theorem resolve_of_sameNames {loc : Loc} (hnames : pathNames first = pathNames path)
    (hhead : first.head? = some 0x2f ↔ path.head? = some 0x2f)
    (h : fs.resolve true (requestPath path) = .found loc) (hdir : fs.tree.isDir loc = true) :
    fs.resolve true (requestPath first) = .found loc := by
  have hpath := resolve_requestPath h
  rw [pathNames_cString, ← hnames, ← pathNames_cString] at hpath
  simp only [← hhead] at hpath
  exact resolve_requestPath_of_dir hpath hdir

/-- Every beginning of a path to a directory is a path to a directory. -/
theorem isDirectory_of_textPrefix (h : IsDirectory path server) (hfirst : TextPrefix first path) :
    IsDirectory first server := by
  obtain ⟨loc, hfound, hdir⟩ := h
  have hvisible : cString first ≠ [] := by
    intro hnil
    obtain ⟨byte, rest, rfl⟩ := List.exists_cons_of_ne_nil hfirst.ne_nil
    have hnul : byte = 0 := by
      by_contra hbyte
      rw [cString, List.takeWhile_cons_of_pos (by simpa using hbyte)] at hnil
      cases hnil
    obtain ⟨others, hpath, -⟩ := hfirst.rest
    have hempty : cString path = [] := by
      rw [hpath, hnul]
      rfl
    rw [requestPath, hempty] at hfound
    exact starts_of_found hfound ⟨rfl, .inl rfl⟩
  have hnamed : ¬ (decide (first.head? = some 0x2f) = false ∧ pathNames (cString first) = []) := by
    have hnamed := ofBytes_named hvisible
    rwa [← requestPath, requestPath_absolute, requestPath_entry] at hnamed
  have hpath := resolve_requestPath hfound
  obtain ⟨rest, hrest⟩ := pathNames_cString_isPrefix hfirst.pathNames
  rw [← hrest, ← hfirst.head] at hpath
  by_cases hnil : rest = []
  · rw [hnil, List.append_nil] at hpath
    exact ⟨loc, resolve_requestPath_of_dir hpath hdir, hdir⟩
  · have hcontinues := resolve_continues server.fs hnil hnamed
    rw [hpath] at hcontinues
    rcases hupper : server.fs.resolve true
      ⟨decide (first.head? = some 0x2f), pathNames (cString first)⟩ with
      upper | ⟨dir, name, more⟩ | error
    · rw [hupper, Walk.Continues] at hcontinues
      split_ifs at hcontinues with hupperDir
      exact ⟨upper, resolve_requestPath_of_dir hupper hupperDir, hupperDir⟩
    · rw [hupper] at hcontinues
      cases hcontinues
    · rw [hupper] at hcontinues
      cases hcontinues

end Requests

/-! ### What the loop adds -/

namespace OnlyMakes

variable {paths others : Bytes → Prop} {before middle after : FileSystem}

theorem refl (paths : Bytes → Prop) (fs : FileSystem) : OnlyMakes paths fs fs :=
  ⟨fun _ _ h ↦ h, fun _ h ↦ absurd rfl h, le_rfl, fun _ _ ↦ rfl, rfl⟩

/-- The new directories may be known by other paths. -/
theorem renamed (h : OnlyMakes paths before after)
    (hpaths : ∀ path loc, paths path → after.resolve true (requestPath path) = .found loc →
      after.tree.isDir loc = true →
      ∃ other, others other ∧ after.resolve true (requestPath other) = .found loc) :
    OnlyMakes others before after where
  kept := h.kept
  made := by
    intro loc hloc
    obtain ⟨hdir, path, hpath, hfound⟩ := h.made loc hloc
    exact ⟨hdir, hpaths path loc hpath hfound hdir⟩
  count := h.count
  inode := h.inode
  others := h.others

theorem mono (h : OnlyMakes paths before after) (hpaths : ∀ path, paths path → others path) :
    OnlyMakes others before after :=
  h.renamed fun path _ hpath hfound _ ↦ ⟨path, hpaths path hpath, hfound⟩

theorem isDir (h : OnlyMakes paths before after) {loc : Loc} (hdir : before.tree.isDir loc = true) :
    after.tree.isDir loc = true := by
  obtain ⟨ino, hget⟩ := FileTree.isDir_iff.mp hdir
  exact FileTree.isDir_iff.mpr ⟨ino, h.kept loc _ hget⟩

theorem cwd (h : OnlyMakes paths before after) : after.cwd = before.cwd := by rw [h.others]

/-- A path that leads somewhere still leads there. -/
theorem resolve (h : OnlyMakes paths before after) {path : Path} {loc : Loc}
    (hfound : before.resolve true path = .found loc) : after.resolve true path = .found loc := by
  have hstarts := starts_of_found hfound
  have hstarts' : ¬ (path.absolute = false ∧
      (path.comps = [] ∨ after.tree.isDir after.cwd = false)) := by
    rintro ⟨hrelative, hempty | hgone⟩
    · exact hstarts ⟨hrelative, .inl hempty⟩
    · refine hstarts ⟨hrelative, .inr ?_⟩
      by_contra hcwd
      rw [h.cwd, h.isDir (Bool.not_eq_false _ ▸ hcwd)] at hgone
      exact nomatch hgone
  rw [FileSystem.resolve, if_neg hstarts] at hfound
  rw [FileSystem.resolve, if_neg hstarts', h.cwd]
  exact walk_found_mono h.kept hfound

theorem trans (hfirst : OnlyMakes paths before middle) (hsecond : OnlyMakes paths middle after) :
    OnlyMakes paths before after where
  kept := fun loc node h ↦ hsecond.kept loc node (hfirst.kept loc node h)
  made := by
    intro loc hloc
    by_cases hmiddle : middle.tree.get loc = before.tree.get loc
    · exact hsecond.made loc (hmiddle ▸ hloc)
    · obtain ⟨hdir, path, hpath, hfound⟩ := hfirst.made loc hmiddle
      exact ⟨hsecond.isDir hdir, path, hpath, hsecond.resolve hfound⟩
  count := hfirst.count.trans hsecond.count
  inode := fun ino hino ↦
    (hsecond.inode ino (hino.trans_le hfirst.count)).trans (hfirst.inode ino hino)
  others := by
    rw [hsecond.others, hfirst.others]

end OnlyMakes

/-- What one request adds. -/
theorem onlyMakes_of_mkdir {fs : FileSystem} {path : Bytes} {mode : UInt32} {done : Done Unit}
    (h : fs.mkdir (requestPath path) mode = .ok done) :
    OnlyMakes (· = path) fs done.fs ∧
      ∃ loc, done.fs.resolve true (requestPath path) = .found loc ∧
        done.fs.tree.isDir loc = true := by
  obtain ⟨dir, name, hadds, hfound⟩ := resolve_of_mkdir h
  have hdir : done.fs.tree.isDir (dir ++ [name]) = true :=
    FileTree.isDir_iff.mpr ⟨_, (hadds.get _).trans (if_pos rfl)⟩
  refine ⟨⟨hadds.grows.kept, fun loc hloc ↦ ?_, hadds.grows.count, hadds.grows.inode,
    others_of_mkdir h⟩, _, hfound, hdir⟩
  have hmade : loc = dir ++ [name] := by
    by_contra hother
    exact hloc ((hadds.get loc).trans (if_neg hother))
  rw [hmade]
  exact ⟨hdir, path, rfl, hfound⟩

section Loop

variable {server after : MkdirServer} {perms : UInt32} {result : Result Unit}

/-- The loop adds directories at its levels and nothing else. -/
theorem makeLevels_onlyMakes (todo : List Bytes) :
    ∀ {server : MkdirServer}, makeLevels perms todo server = (result, after) →
      OnlyMakes (· ∈ todo) server.fs after.fs := by
  induction todo with
  | nil =>
    intro server h
    obtain ⟨-, rfl⟩ := Prod.mk.inj h
    exact .refl _ _
  | cons level rest ih =>
    intro server h
    rw [makeLevels] at h
    rcases hexists : tryExists level server with info | _ | _ <;> simp only [hexists] at h
    · obtain ⟨-, rfl⟩ := Prod.mk.inj h
      exact .refl _ _
    · unfold tryMkdir at h
      rcases hmkdir : server.fs.mkdir (requestPath level) perms with error | done <;>
        simp only [hmkdir] at h
      · obtain ⟨-, rfl⟩ := Prod.mk.inj h
        exact .refl _ _
      · have hfirst := (onlyMakes_of_mkdir hmkdir).1
        exact (hfirst.mono fun path hpath ↦ hpath ▸ List.mem_cons_self).trans
          ((ih h).mono fun path ↦ List.mem_cons_of_mem level)
    · exact (ih h).mono fun path ↦ List.mem_cons_of_mem level

/-- After a success every level exists. -/
theorem tryExists_of_makeLevels (todo : List Bytes) :
    ∀ {server : MkdirServer}, makeLevels perms todo server = (.ok (), after) →
      ∀ level ∈ todo, tryExists level after = .ok true := by
  induction todo with
  | nil => exact fun _ _ h ↦ absurd h List.not_mem_nil
  | cons level rest ih =>
    intro server h other hother
    rw [makeLevels] at h
    have hfirst : ∃ middle, makeLevels perms rest middle = (.ok (), after) ∧
        tryExists level middle = .ok true := by
      rcases hexists : tryExists level server with info | _ | _ <;> simp only [hexists] at h
      · cases congrArg Prod.fst h
      · rcases tryMkdir_cases level perms server with
          ⟨info, hmade⟩ | ⟨middle, hmade, -, hafter, -⟩ <;>
          simp only [hmade] at h
        · cases congrArg Prod.fst h
        · exact ⟨middle, h, hafter⟩
      · exact ⟨server, h, hexists⟩
    obtain ⟨middle, hrest, hlevel⟩ := hfirst
    rcases List.mem_cons.mp hother with rfl | hlater
    · obtain ⟨loc, hfound⟩ := tryExists_iff_found.mp hlevel
      exact tryExists_iff_found.mpr ⟨loc, (makeLevels_onlyMakes rest hrest).resolve hfound⟩
    · exact ih hrest other hlater

/-- Levels that exist are passed. -/
theorem makeLevels_of_exists (todo : List Bytes)
    (h : ∀ level ∈ todo, tryExists level server = .ok true) :
    makeLevels perms todo server = (.ok (), server) := by
  induction todo with
  | nil => rfl
  | cons level rest ih =>
    rw [makeLevels, h level List.mem_cons_self]
    exact ih fun other hother ↦ h other (List.mem_cons_of_mem _ hother)

theorem makeLevels_append (first second : List Bytes) :
    ∀ {server : MkdirServer}, makeLevels perms (first ++ second) server =
      match makeLevels perms first server with
      | (.error info, middle) => (.error info, middle)
      | (.ok (), middle) => makeLevels perms second middle := by
  induction first with
  | nil => exact rfl
  | cons level first ih =>
    intro server
    rw [List.cons_append, makeLevels, makeLevels]
    rcases tryExists level server with info | _ | _
    · rfl
    · rcases tryMkdir level perms server with ⟨_ | _, middle⟩
      · rfl
      · exact ih
    · exact ih

/-- The last level is passed if it exists; otherwise it is a directory afterwards. -/
theorem makeLevels_last {last : Bytes} (h : makeLevels perms [last] server = (.ok (), after)) :
    IsDirectory last after ∨ after = server ∧
      ∃ loc, server.fs.resolve true (requestPath last) = .found loc := by
  rw [makeLevels] at h
  rcases hexists : tryExists last server with info | _ | _ <;> simp only [hexists] at h
  · cases congrArg Prod.fst h
  · unfold tryMkdir at h
    rcases hmkdir : server.fs.mkdir (requestPath last) perms with error | done <;>
      simp only [hmkdir] at h
    · cases congrArg Prod.fst h
    · obtain ⟨-, rfl⟩ := Prod.mk.inj h
      exact .inl (onlyMakes_of_mkdir hmkdir).2
  · obtain ⟨-, rfl⟩ := Prod.mk.inj h
    exact .inr ⟨rfl, tryExists_iff_found.mp hexists⟩

end Loop

/-! ### Whole calls -/

section Call

variable {path : Bytes} {perms : UInt32} {server after : MkdirServer}

theorem mem_levels_of_last {before : List Bytes} {last : Bytes}
    (h : levels path = before ++ [last]) : last ∈ levels path :=
  h ▸ List.mem_append_right before (List.mem_singleton_self last)

/-- The last level is the path. -/
theorem isDirectory_last_iff {before : List Bytes} {last : Bytes}
    (h : levels path = before ++ [last]) (server : MkdirServer) :
    IsDirectory last server ↔ IsDirectory path server := by
  have hnames := pathNames_last h
  have hhead := (mem_levels (mem_levels_of_last h)).2.2
  constructor
  · rintro ⟨loc, hfound, hdir⟩
    exact ⟨loc, resolve_of_sameNames hnames.symm hhead.symm hfound hdir, hdir⟩
  · rintro ⟨loc, hfound, hdir⟩
    exact ⟨loc, resolve_of_sameNames hnames hhead hfound hdir, hdir⟩

/-- A path without levels is the root directory. -/
theorem isDirectory_of_levels_nil (hne : path ≠ []) (h : levels path = []) (server : MkdirServer) :
    IsDirectory path server := by
  have hnames := pathNames_of_levels_nil h
  have hhead : path.head? = some 0x2f := by
    by_contra hhead
    have hnamed := ofBytes_named hne
    rw [ofBytes_absolute, ofBytes_entry, hnames, decide_eq_false hhead] at hnamed
    exact hnamed ⟨rfl, rfl⟩
  have hroot : server.fs.resolve true ⟨decide (path.head? = some 0x2f), pathNames (cString path)⟩ =
      .found [] := by
    rw [pathNames_cString, hnames, decide_eq_true hhead, FileSystem.resolve_absolute]
    exact walk_nil
  exact ⟨[], resolve_requestPath_of_dir hroot server.fs.tree.isDir_nil, server.fs.tree.isDir_nil⟩

/-- A call whose last level is something else succeeds, and leaves what it found. -/
theorem PassesOther.result (h : PassesOther path perms server) :
    ∃ after, tryMkdirP path perms server = (.ok (), after) ∧ ¬ IsDirectory path after := by
  obtain ⟨before, last, hlevels, hbefore, loc, hfound, hother⟩ := h
  rcases hrun : makeLevels perms before server with ⟨result, middle⟩
  rw [hrun] at hbefore hfound hother
  obtain rfl : result = .ok () := hbefore
  have hlast : makeLevels perms [last] middle = (.ok (), middle) := by
    rw [makeLevels, tryExists_iff_found.mpr ⟨loc, hfound⟩]
    rfl
  refine ⟨middle, ?_, ?_⟩
  · rw [tryMkdirP, hlevels, makeLevels_append, hrun]
    exact hlast
  · rw [← isDirectory_last_iff hlevels]
    rintro ⟨dir, hdir, hisDir⟩
    rw [hfound] at hdir
    rw [← Walk.found.inj hdir, hother] at hisDir
    cases hisDir

/-- After a success the path is a directory, unless the last level was passed as something
else. -/
theorem isDirectory_of_ok (hne : path ≠ []) (h : tryMkdirP path perms server = (.ok (), after))
    (hnot : ¬ PassesOther path perms server) : IsDirectory path after := by
  rcases List.eq_nil_or_concat' (levels path) with hnil | ⟨before, last, hlevels⟩
  · exact isDirectory_of_levels_nil hne hnil after
  · rw [tryMkdirP, hlevels, makeLevels_append] at h
    rcases hbefore : makeLevels perms before server with ⟨info | _, middle⟩ <;>
      simp only [hbefore] at h
    · exact nomatch congrArg Prod.fst h
    rw [← isDirectory_last_iff hlevels]
    rcases makeLevels_last h with hlast | ⟨rfl, loc, hfound⟩
    · exact hlast
    · refine ⟨loc, hfound, ?_⟩
      by_contra hother
      rw [Bool.not_eq_true] at hother
      refine hnot ⟨before, last, hlevels, by rw [hbefore], loc, ?_, ?_⟩
      · rw [hbefore]
        exact hfound
      · rw [hbefore]
        exact hother

/-- A call adds directories at beginnings of its path and nothing else. -/
theorem tryMkdirP_onlyMakes (path : Bytes) (perms : UInt32) (server : MkdirServer) :
    OnlyMakes (TextPrefix · path) server.fs (tryMkdirP path perms server).2.fs := by
  have hmakes := makeLevels_onlyMakes (levels path)
    (Prod.ext rfl rfl : makeLevels perms (levels path) server = (_, _))
  refine hmakes.renamed fun level loc hlevel hfound hdir ↦ ?_
  obtain ⟨hne, hprefix, hhead⟩ := mem_levels hlevel
  obtain ⟨first, hfirst, hnames⟩ := exists_textPrefix path hne hprefix
  refine ⟨first, hfirst, resolve_of_sameNames hnames ?_ hfound hdir⟩
  rw [hfirst.head, hhead]

end Call

/-- A call of `try_mkdir_p` does what it is to do exactly if its loop does not find the last
level to be an object that is no directory. -/
theorem tryMkdirP_makes_iff (path : Bytes) (perms : UInt32) (server : MkdirServer) :
    MakesPath path perms server ↔ ¬ PassesOther path perms server := by
  constructor
  · intro hmakes hother
    obtain ⟨after, hrun, hnot⟩ := hother.result
    obtain ⟨before, last, hlevels, -⟩ := hother
    have hne : path ≠ [] := by
      rintro rfl
      exact absurd hlevels.symm (List.append_ne_nil_of_right_ne_nil before (by simp))
    have hall := hmakes.directories (by rw [hrun]) path (.refl hne)
    rw [hrun] at hall
    exact hnot hall
  · intro hnot
    refine ⟨tryMkdirP_onlyMakes path perms server, fun hok first hfirst ↦ ?_, fun hok ↦ ?_⟩
    · have hne : path ≠ [] := by
        rintro rfl
        obtain ⟨rest, hrest, -⟩ := hfirst.rest
        exact hfirst.ne_nil (List.append_eq_nil_iff.mp hrest.symm).1
      exact isDirectory_of_textPrefix (isDirectory_of_ok hne (Prod.ext hok rfl) hnot) hfirst
    · exact makeLevels_of_exists _ (tryExists_of_makeLevels _ (Prod.ext hok rfl))

/-- A server with one file, `/f`. -/
def fileServer : MkdirServer where
  fs := {
    tree := {
      nodes := ⟨[⟨[], .dir 0⟩, ⟨[ascii "f"], .file 1⟩], by unfold List.NodupKeys; decide⟩
      root := by decide
      parent := by decide
      proper := by decide }
    inodes := [{}, {}] }
  statStatus _ := ⟨sshFxNoSuchFile, sshFxNoSuchFile_ne⟩
  mkdirStatus _ := ⟨sshFxFailure, sshFxFailure_ne⟩

/-- The file is taken for the directory that is asked for. -/
theorem tryMkdirP_file_succeeds :
    (tryMkdirP (ascii "/f") 0o755 fileServer).1 = .ok () ∧
      ¬ MakesPath (ascii "/f") 0o755 fileServer := by
  have hok : (tryMkdirP (ascii "/f") 0o755 fileServer).1 = .ok () := by decide +kernel
  have hfile : (tryMkdirP (ascii "/f") 0o755 fileServer).2.fs.resolve true
      (requestPath (ascii "/f")) = .found [ascii "f"] := by decide +kernel
  refine ⟨hok, fun hmakes ↦ ?_⟩
  obtain ⟨loc, hfound, hdir⟩ := hmakes.directories hok (ascii "/f") (.refl (by decide +kernel))
  rw [hfile] at hfound
  rw [← Walk.found.inj hfound] at hdir
  exact absurd hdir (by decide +kernel)

end LibSshpp.Sftp
