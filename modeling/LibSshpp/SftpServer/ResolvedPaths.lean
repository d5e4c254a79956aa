import LibSshpp.Posix.NewObjects
import LibSshpp.Posix.PathTexts
import LibSshpp.SftpServer.EntryRequests
import LibSshpp.SftpServer.RootConfinement

/-!
What `resolve_sftp_path` returns. Where there are no symbolic links it reads the
client's path lexically from the root on; where there are, only the part of the path
that exists is freed of them, and `..` can lead from the other part back to a link.
-/

set_option autoImplicit false
set_option relaxedAutoImplicit false

namespace LibSshpp.SftpServer

open Posix Sftp Program

/-! ### The joined path -/

theorem relativePath_comps_ne_nil (sftpPath : Bytes) : (relativePath sftpPath).comps ≠ [] := by
  unfold relativePath
  dsimp only
  split_ifs with hclean
  · decide
  · refine Path.ofBytes_comps_ne_nil hclean fun hhead ↦ ?_
    have hnot := List.head?_dropWhile_not (· = 0x2f) sftpPath
    rw [hhead] at hnot
    simp at hnot

/-- Leading slashes mean nothing. -/
theorem lexical_segments_dropWhile (dir : List Name) (text : Bytes) :
    lexical dir (segments (text.dropWhile (· = 0x2f))) = lexical dir (segments text) := by
  induction text with
  | nil => rfl
  | cons byte rest ih =>
    by_cases hslash : byte = 0x2f
    · rw [List.dropWhile_cons_of_pos (by simp [hslash]), ih, segments, if_pos hslash,
        lexical_cons, lexicalStep_idle (.inl rfl)]
    · rw [List.dropWhile_cons_of_neg (by simp [hslash])]

theorem lexical_relativePath (dir : List Name) (sftpPath : Bytes) :
    lexical dir (relativePath sftpPath).comps = lexical dir (segments sftpPath) := by
  rw [← lexical_segments_dropWhile]
  unfold relativePath
  dsimp only
  split_ifs with hclean
  · have hdot : lexical dir [dot] = dir := lexicalStep_idle (.inr rfl)
    have hempty : lexical dir [[]] = dir := lexicalStep_idle (.inl rfl)
    rw [hclean, segments, hempty, lexical_ofBytes]
    exact hdot
  · rw [lexical_ofBytes]

theorem join_relative (root : Path) {more : Path} (hrelative : more.absolute = false)
    (hne : more.comps ≠ []) :
    root.join more = ⟨root.absolute, root.entry.comps ++ more.comps⟩ := by
  rw [Path.join, hrelative, if_neg Bool.false_ne_true, if_neg hne]

theorem join_relativePath (root : Path) (sftpPath : Bytes) :
    root.join (relativePath sftpPath) =
      ⟨root.absolute, root.entry.comps ++ (relativePath sftpPath).comps⟩ :=
  join_relative root (relativePath_absolute sftpPath) (relativePath_comps_ne_nil sftpPath)

/-- A call that no fault stops comes out as in a world without faults. -/
theorem weaklyCanonical_of_passes {world : World} (h : world.fault.fails = false) (path : Path) :
    weaklyCanonical path world = (world.fs.weaklyCanonical path, world.dropFault) := by
  unfold weaklyCanonical
  cases hfault : world.fault with
  | fail error => exact nomatch hfault ▸ h
  | none => rfl
  | short count => rfl

theorem weaklyCanonical_of_fails {world : World} (h : world.fault.fails = true) (path : Path) :
    ∃ error, weaklyCanonical path world = (.error error, world.dropFault) := by
  unfold weaklyCanonical
  cases hfault : world.fault with
  | fail error => exact ⟨error, rfl⟩
  | none => exact nomatch hfault ▸ h
  | short count => exact nomatch hfault ▸ h

theorem resolveSftpPath_eq_ok_iff {world : World} (hfaults : world.faults = []) {root canon : Path}
    {sftpPath : Bytes} : (resolveSftpPath root sftpPath world).1 = .ok canon ↔
      Resolves world.fs root sftpPath canon := by
  constructor
  · intro h
    by_contra hnot
    by_cases hresolves : ∃ other, Resolves world.fs root sftpPath other
    · obtain ⟨other, hother⟩ := hresolves
      rw [resolveSftpPath_of_resolves hfaults hother] at h
      exact hnot (Except.ok.inj h ▸ hother)
    · obtain ⟨error, herror⟩ := resolveSftpPath_of_error hfaults
        fun other hother ↦ hresolves ⟨other, hother⟩
      rw [herror] at h
      exact nomatch h
  · intro h
    rw [resolveSftpPath_of_resolves hfaults h]

/-- What `resolve_sftp_path` makes of the results of its two calls. -/
def resolution : Except Errno Path → Except Errno Path → Result Path
  | .error error, _ | .ok _, .error error =>
    .error ⟨.ssh .invalidArgument, strerror error, "resolve_sftp_path"⟩
  | .ok canonRoot, .ok canon =>
    if canonRoot.elements <+: canon.elements then .ok canon
    else .error ⟨.ssh .invalidArgument, "path escapes the sftp root", "resolve_sftp_path"⟩

theorem resolveSftpPath_eq_resolution (root : Path) (sftpPath : Bytes) (world : World) :
    (resolveSftpPath root sftpPath world).1 =
      resolution (weaklyCanonical root world).1
        (weaklyCanonical (root.join (relativePath sftpPath)) (weaklyCanonical root world).2).1 := by
  rcases hroot : weaklyCanonical root world with ⟨canonRoot, after⟩
  rcases hcanon : weaklyCanonical (root.join (relativePath sftpPath)) after with ⟨canon, final⟩
  cases canonRoot with
  | error error =>
    have hrun : resolveSftpPath root sftpPath world = (.error _, after) := bind_of_eq hroot
    rw [hrun]
    rfl
  | ok canonRoot =>
    cases canon with
    | error error =>
      have hrun : resolveSftpPath root sftpPath world = (.error _, final) :=
        (bind_of_eq hroot).trans (bind_of_eq hcanon)
      rw [hrun]
      rfl
    | ok canon =>
      have hrun : resolveSftpPath root sftpPath world =
          (resolution (.ok canonRoot) (.ok canon), final) := by
        refine (bind_of_eq hroot).trans ((bind_of_eq hcanon).trans ?_)
        by_cases hunder : canonRoot.elements <+: canon.elements
        · simp only [resolution, if_pos hunder]
          rfl
        · simp only [resolution, if_neg hunder]
          rfl
      rw [hrun]

/-- Two calls that no fault stops come out as in a world without faults. -/
theorem resolveSftpPath_of_passes {world : World} (hfirst : world.fault.fails = false)
    (hsecond : world.dropFault.fault.fails = false) (root : Path) (sftpPath : Bytes) :
    (resolveSftpPath root sftpPath world).1 =
      (resolveSftpPath root sftpPath { world with faults := [] }).1 := by
  rw [resolveSftpPath_eq_resolution, resolveSftpPath_eq_resolution,
    weaklyCanonical_of_passes hfirst, weaklyCanonical_of_passes hsecond]
  rfl

theorem resolveSftpPath_of_refused {world : World}
    (h : world.fault.fails = true ∨ world.dropFault.fault.fails = true) (root canon : Path)
    (sftpPath : Bytes) : (resolveSftpPath root sftpPath world).1 ≠ .ok canon := by
  intro hcanon
  rw [resolveSftpPath_eq_resolution] at hcanon
  cases hfirst : world.fault.fails with
  | true =>
    obtain ⟨error, hcall⟩ := weaklyCanonical_of_fails hfirst root
    rw [hcall] at hcanon
    exact nomatch hcanon
  | false =>
    have hsecond := h.resolve_left (by simp [hfirst])
    obtain ⟨error, hcall⟩ := weaklyCanonical_of_fails hsecond (root.join (relativePath sftpPath))
    rw [weaklyCanonical_of_passes hfirst, hcall] at hcanon
    cases hroot : world.fs.weaklyCanonical root with
    | error error => exact nomatch hroot ▸ hcanon
    | ok canonRoot => exact nomatch hroot ▸ hcanon

/-- `resolve_sftp_path` returns a path if neither of its two calls is stopped by a fault and
the path resolves. -/
theorem resolveSftpPath_eq_ok_iff_passes {world : World} {root canon : Path} {sftpPath : Bytes} :
    (resolveSftpPath root sftpPath world).1 = .ok canon ↔
      world.fault.fails = false ∧ world.dropFault.fault.fails = false ∧
        Resolves world.fs root sftpPath canon := by
  cases hfirst : world.fault.fails with
  | true =>
    have hrefused := resolveSftpPath_of_refused (Or.inl hfirst) root canon sftpPath
    exact ⟨fun h ↦ absurd h hrefused, fun h ↦ absurd h.1 (by decide)⟩
  | false =>
    cases hsecond : world.dropFault.fault.fails with
    | true =>
      have hrefused := resolveSftpPath_of_refused (Or.inr hsecond) root canon sftpPath
      exact ⟨fun h ↦ absurd h hrefused, fun h ↦ absurd h.2.1 (by decide)⟩
    | false =>
      rw [resolveSftpPath_of_passes hfirst hsecond, resolveSftpPath_eq_ok_iff rfl]
      exact ⟨fun h ↦ ⟨rfl, rfl, h⟩, fun h ↦ h.2.2⟩

/-- A physical root is a prefix of a normal form if it is one of its names. -/
theorem prefix_closing_iff {root names comps : List Name} (hroot : [] ∉ root) :
    root <+: names ++ closing names comps ↔ root <+: names := by
  constructor
  · intro h
    unfold closing at h
    split_ifs at h
    · rcases List.prefix_concat_iff.mp h with heq | hunder
      · exact absurd (heq ▸ List.mem_append_right names List.mem_cons_self) hroot
      · exact hunder
    · rwa [List.append_nil] at h
  · exact fun h ↦ h.trans (List.prefix_append _ _)

theorem elements_prefix_iff {root : Loc} {canon : Path} (habsolute : canon.absolute = true) :
    Path.elements ⟨true, root⟩ <+: canon.elements ↔ root <+: canon.comps := by
  refine ⟨fun h ↦ (under_of_elements h).2, fun h ↦ ?_⟩
  rw [Path.elements, Path.elements, habsolute]
  exact List.cons_prefix_cons.mpr ⟨rfl, h.map some⟩

/-! ### Without links -/

/-- The components of a path from the root directory on. -/
def absoluteComps (fs : FileSystem) (path : Path) : List Name :=
  if path.absolute then path.comps else fs.cwd ++ path.comps

theorem rootNames_eq {fs : FileSystem}
    (hlinks : ∀ loc target attr, fs.tree.get loc ≠ some (.symlink target attr)) {root : Path}
    {rootLoc : Loc} (hroot : fs.resolve true root = .found rootLoc) :
    lexical [] (absoluteComps fs root) = rootLoc := by
  rw [resolve_readsLexically hlinks hroot, absoluteComps]
  split_ifs with habsolute
  · rfl
  · have hdir := isDir_start (starts_of_found hroot)
    rw [if_neg habsolute] at hdir
    have hcwd := isEntryName_of_get (FileTree.get_ne_none_of_isDir hdir)
    rw [lexical_append, lexical_names hcwd, List.nil_append]

/-- What `resolve_sftp_path` does with a path, from how the joined path reads. -/
theorem resolves_iff_of_readsAs {fs : FileSystem} {root canon : Path} {sftpPath : Bytes}
    {rootLoc base : Loc} {rest : List Name} (hroot : fs.resolve true root = .found rootLoc)
    (hreads : ReadsAs fs (root.join (relativePath sftpPath)) base rest) :
    Resolves fs root sftpPath canon ↔
      rootLoc <+: lexical base rest ∧ canon = normalFrom base rest := by
  have hexists := fs.resolve_sound true root
  rw [hroot] at hexists
  have hproper : [] ∉ rootLoc := fun hmem ↦
    isEntryName_ne_nil (isEntryName_of_get hexists [] hmem) rfl
  have hunder : Path.elements ⟨true, rootLoc⟩ <+: (normalFrom base rest).elements ↔
      rootLoc <+: lexical base rest :=
    (elements_prefix_iff rfl).trans (prefix_closing_iff hproper)
  constructor
  · rintro ⟨canonRoot, hcanonRoot, hcanon, helements⟩
    rw [FileSystem.weaklyCanonical_of_found hroot] at hcanonRoot
    rw [hreads.weaklyCanonical] at hcanon
    rw [← Except.ok.inj hcanonRoot, ← Except.ok.inj hcanon] at helements
    exact ⟨hunder.mp helements, (Except.ok.inj hcanon).symm⟩
  · rintro ⟨hinside, rfl⟩
    exact ⟨⟨true, rootLoc⟩, FileSystem.weaklyCanonical_of_found hroot, hreads.weaklyCanonical,
      hunder.mpr hinside⟩

/-- The text of a client's path relative to the root. -/
def relativeText (sftpPath : Bytes) : Bytes :=
  let clean := sftpPath.dropWhile (· = 0x2f)
  if clean = [] then [0x2e] else clean

/-- The text that the second `weakly_canonical` of `resolve_sftp_path` is called with. -/
def requestText (rootText sftpPath : Bytes) : Bytes := joinTexts rootText (relativeText sftpPath)

theorem ofBytes_requestText (rootText sftpPath : Bytes) :
    Path.ofBytes (requestText rootText sftpPath) =
      (Path.ofBytes rootText).join (relativePath sftpPath) := by
  have hread : relativePath sftpPath = Path.ofBytes (relativeText sftpPath) := by
    unfold relativePath relativeText
    dsimp only
    split_ifs <;> rfl
  have hne : relativeText sftpPath ≠ [] := by
    unfold relativeText
    dsimp only
    split_ifs with hclean
    · exact List.cons_ne_nil _ _
    · exact hclean
  have hrelative : (relativeText sftpPath).head? ≠ some 0x2f := by
    unfold relativeText
    dsimp only
    split_ifs
    · decide
    · intro hhead
      have hnot := List.head?_dropWhile_not (· = 0x2f) sftpPath
      rw [hhead] at hnot
      simp at hnot
  rw [requestText, ofBytes_joinTexts rootText hne hrelative, hread]

/-- What the limits of the kernel do to the two calls of `resolve_sftp_path`. -/
def limitFaults (fs : FileSystem) (rootText sftpPath : Bytes) : List Fault :=
  [rootText, requestText rootText sftpPath].map fun text ↦
    if fs.overLimit text then .fail .enametoolong else .none

theorem fails_limitFault {fs : FileSystem} {text : Bytes} :
    (if fs.overLimit text then Fault.fail .enametoolong else Fault.none).fails =
      fs.overLimit text := by
  cases fs.overLimit text <;> rfl

/-- A client's path is relative to the root with and without a leading slash. -/
theorem resolveSftpPath_leading_slash (root : Path) (sftpPath : Bytes) :
    resolveSftpPath root (0x2f :: sftpPath) = resolveSftpPath root sftpPath := by
  simp [resolveSftpPath]

theorem mismatch_append {α : Type} [DecidableEq α] (upper tail : List α) :
    Path.mismatch (upper ++ tail) upper = (tail, []) := by
  induction upper with
  | nil => cases tail <;> rfl
  | cons first upper ih => rw [List.cons_append, Path.mismatch, if_pos rfl, ih]

theorem lexicallyRelative_append (upper tail : List Name) :
    Path.lexicallyRelative ⟨true, upper ++ tail⟩ ⟨true, upper⟩ =
      if tail = [] ∨ tail.head? = some [] then ⟨false, [dot]⟩ else ⟨false, tail⟩ := by
  have hparts : Path.mismatch (Path.elements ⟨true, upper ++ tail⟩)
      (Path.elements ⟨true, upper⟩) = (tail.map some, []) := by
    simp only [Path.elements, if_true, List.map_append, ← List.cons_append]
    exact mismatch_append _ _
  simp only [Path.lexicallyRelative, hparts]
  cases tail with
  | nil => rfl
  | cons first tail => by_cases hnil : first = [] <;> simp [hnil, List.filterMap_map]

theorem segments_intercalate {parts : List Name} (hne : parts ≠ [])
    (h : ∀ part ∈ parts, 0x2f ∉ part) : segments (List.intercalate [0x2f] parts) = parts := by
  induction parts with
  | nil => exact absurd rfl hne
  | cons part parts ih =>
    have hpart := h part List.mem_cons_self
    cases parts with
    | nil =>
      rw [List.intercalate_singleton]
      exact segments_of_notMem hpart
    | cons next parts =>
      have hrest := ih (List.cons_ne_nil next parts)
        fun other hother ↦ h other (List.mem_cons_of_mem _ hother)
      rw [List.intercalate_cons_cons, List.append_assoc, List.singleton_append,
        segments_append_slash, segments_of_notMem hpart, hrest, List.singleton_append]

/-- The text of names begins with a byte of the first one. -/
theorem intercalate_head {first : Name} (hfirst : isEntryName first) (hslash : 0x2f ∉ first)
    (parts : List Name) : ∃ byte rest,
      List.intercalate [0x2f] (first :: parts) = byte :: rest ∧ byte ≠ 0x2f := by
  obtain ⟨byte, more, rfl⟩ := List.exists_cons_of_ne_nil (isEntryName_ne_nil hfirst)
  have hbyte : byte ≠ 0x2f := fun heq ↦ hslash (heq ▸ List.mem_cons_self)
  cases parts with
  | nil => exact ⟨byte, more, List.intercalate_singleton, hbyte⟩
  | cons next parts =>
    rw [List.intercalate_cons_cons, List.append_assoc, List.cons_append]
    exact ⟨byte, _, rfl, hbyte⟩

/-- A client's path that was made of names is read as those names. -/
theorem relativePath_intercalate {names sep : List Name} (hne : names ≠ [])
    (hnames : ∀ name ∈ names, isEntryName name ∧ 0x2f ∉ name) (hsep : sep = [] ∨ sep = [[]]) :
    relativePath (0x2f :: (⟨false, names ++ sep⟩ : Path).text) = ⟨false, names ++ sep⟩ := by
  obtain ⟨first, parts, rfl⟩ := List.exists_cons_of_ne_nil hne
  obtain ⟨hfirst, hslash⟩ := hnames first List.mem_cons_self
  obtain ⟨byte, rest, hbytes, hbyte⟩ := intercalate_head hfirst hslash (parts ++ sep)
  have htext : (⟨false, first :: parts ++ sep⟩ : Path).text = byte :: rest := hbytes
  have hsegments : segments (byte :: rest) = first :: parts ++ sep := by
    rw [← hbytes]
    refine segments_intercalate (List.cons_ne_nil _ _) fun part hpart ↦ ?_
    rcases List.mem_append.mp (List.cons_append ▸ hpart) with hname | hpart
    · exact (hnames part hname).2
    · rcases hsep with rfl | rfl
      · exact absurd hpart List.not_mem_nil
      · rw [List.mem_singleton.mp hpart]
        exact List.not_mem_nil
  have hfilter : (first :: parts ++ sep).filter (· ≠ []) = first :: parts := by
    have hkept : (first :: parts).filter (· ≠ []) = first :: parts :=
      List.filter_eq_self.mpr fun name hname ↦ by
        simpa using isEntryName_ne_nil (hnames name hname).1
    have hdropped : sep.filter (· ≠ []) = [] := by
      rcases hsep with rfl | rfl <;> rfl
    rw [List.filter_append, hkept, hdropped, List.append_nil]
  have hclean : (0x2f :: byte :: rest).dropWhile (· = 0x2f) = byte :: rest := by
    rw [List.dropWhile_cons_of_pos (by decide), List.dropWhile_cons_of_neg (by simpa using hbyte)]
  rw [htext, relativePath]
  simp only [hclean, if_neg (List.cons_ne_nil byte rest), Path.ofBytes, hsegments, hfilter]
  have hlast : (first :: parts).getLast? ≠ some [] := fun hlast ↦
    isEntryName_ne_nil (hnames [] (List.mem_of_getLast? hlast)).1 rfl
  rcases hsep with rfl | rfl
  · simp [hbyte, hlast]
  · have hend : (first :: parts ++ [[]]).getLast? = some [] := List.getLast?_concat
    simpa [hbyte] using hend

/-! ### What a resolved path should be -/

/-- The path lies under the canonical root, is canonical, and comes back from the client as
itself. -/
structure Settled (world : World) (root canon : Path) : Prop where
  under : ∃ canonRoot, world.fs.weaklyCanonical root = .ok canonRoot ∧
    canonRoot.elements <+: canon.elements
  absolute : canon.absolute = true
  noLink : ∀ upper, upper <+: canon.comps → ¬ IsLink world.fs ⟨canon.absolute, upper⟩
  itself : ∀ follow loc, world.fs.resolve follow canon = .found loc → canon.entry.comps = loc
  again : (resolveSftpPath root (toClientPath root canon world).1 world).1 = .ok canon

/-- When the client's path reads as `rest` after `base`, the conditions on its names and on
a separator after them: under the empty root only the working directory comes back, under a
directory no separator may follow a directory, and a root that is no directory comes back
with a separator only. -/
structure SeparatorKept (fs : FileSystem) (root : Path) (base : Loc) (rest : List Name) :
    Prop where
  unrooted : root = ⟨false, []⟩ →
    lexical base rest = fs.cwd ∧ closing (lexical base rest) rest = []
  below : ∀ dir, fs.resolve true root = .found dir → fs.tree.isDir dir = true →
    fs.tree.isDir (lexical base rest) = true → closing (lexical base rest) rest = []
  absent : root ≠ ⟨false, []⟩ →
    (∀ dir, fs.resolve true root = .found dir → fs.tree.isDir dir = false) →
      fs.weaklyCanonical root = .ok ⟨true, lexical base rest⟩ →
        closing (lexical base rest) rest = [] → lexical base rest = []

/-- A path comes back as what the joined client's path is made canonical to. -/
theorem again_iff {world : World} (hfaults : world.faults = []) {root canon : Path}
    {sftpPath : Bytes} (h : Resolves world.fs root sftpPath canon) (client : Bytes) :
    (resolveSftpPath root client world).1 = .ok canon ↔
      world.fs.weaklyCanonical (root.join (relativePath client)) = .ok canon := by
  rw [resolveSftpPath_eq_ok_iff hfaults]
  obtain ⟨canonRoot, hroot, -, hunder⟩ := h
  exact ⟨fun ⟨_, _, hcanon, _⟩ ↦ hcanon, fun hcanon ↦ ⟨canonRoot, hroot, hcanon, hunder⟩⟩

/-! ### Coming back from the client -/

section Again

variable {world : World} {rootText sftpPath : Bytes} {base : Loc} {rest : List Name}

theorem closing_cases (names comps : List Name) :
    closing names comps = [] ∨ closing names comps = [[]] := by
  rw [closing]
  split_ifs
  · exact .inr rfl
  · exact .inl rfl

theorem slash_notMem_joined {root : Path} (hroot : ∀ name ∈ root.comps, 0x2f ∉ name) {name : Name}
    (hname : name ∈ (root.join (relativePath sftpPath)).comps) : 0x2f ∉ name := by
  rw [join_relativePath] at hname
  rcases List.mem_append.mp hname with hname | hname
  · refine hroot name ?_
    rcases entry_comps_cases root with hcomps | hcomps
    · exact hcomps ▸ hname
    · rw [hcomps]
      exact List.mem_append_left _ hname
  · rw [relativePath] at hname
    split_ifs at hname
    · exact Path.slash_notMem_ofBytes hname
    · exact Path.slash_notMem_ofBytes hname

/-- The names that a client's path reads as are names of entries. -/
theorem names_of_readsAs
    (h : ReadsAs world.fs ((Path.ofBytes rootText).join (relativePath sftpPath)) base rest) :
    ∀ name ∈ lexical base rest, isEntryName name ∧ 0x2f ∉ name := by
  intro name hname
  refine ⟨isEntryName_of_mem_lexical (isEntryName_of_get h.exists_base) hname, ?_⟩
  rcases mem_lexical hname with hbase | ⟨hrest, -⟩
  · exact (FileTree.properName_of_mem h.exists_base hbase).2.2.2
  · exact slash_notMem_joined (fun _ ↦ Path.slash_notMem_ofBytes) (h.rest_subset name hrest)

variable (hfaults : world.faults = [])

include hfaults

/-- The path the client is given, for a path below the canonical root. -/
theorem toClientPath_below {root : Path} {upper names sep : List Name}
    (hroot : world.fs.weaklyCanonical root = .ok ⟨true, upper⟩)
    (hnames : ∀ name ∈ names, isEntryName name) (hsep : sep = [] ∨ sep = [[]]) :
    (toClientPath root ⟨true, upper ++ (names ++ sep)⟩ world).1 =
      if names = [] then [0x2f] else 0x2f :: (⟨false, names ++ sep⟩ : Path).text := by
  have hcanon := weaklyCanonical_of_nil hfaults root
  rw [hroot] at hcanon
  rw [toClientPath, bind_of_eq hcanon]
  simp only [lexicallyRelative_append]
  cases names with
  | nil => rcases hsep with rfl | rfl <;> rfl
  | cons first more =>
    have hfirst := hnames first List.mem_cons_self
    have hnil : first ≠ [] := isEntryName_ne_nil hfirst
    have hdot : first ≠ dot := fun heq ↦ hfirst.1 (.inr heq)
    simp [hnil, hdot, pure, stateT_pure]

/-- What that path is joined to. -/
theorem join_toClientPath {root : Path} {upper names sep : List Name}
    (hroot : world.fs.weaklyCanonical root = .ok ⟨true, upper⟩)
    (hnames : ∀ name ∈ names, isEntryName name ∧ 0x2f ∉ name) (hsep : sep = [] ∨ sep = [[]]) :
    root.join (relativePath (toClientPath root ⟨true, upper ++ (names ++ sep)⟩ world).1) =
      ⟨root.absolute, root.entry.comps ++ if names = [] then [dot] else names ++ sep⟩ := by
  rw [toClientPath_below hfaults hroot (fun name hname ↦ (hnames name hname).1) hsep]
  by_cases hnil : names = []
  · rw [if_pos hnil, if_pos hnil]
    exact join_relative root rfl (List.cons_ne_nil dot [])
  · rw [if_neg hnil, if_neg hnil, relativePath_intercalate hnil hnames hsep]
    exact join_relative root rfl (List.append_ne_nil_of_left_ne_nil hnil sep)

/-- Under a root that is a directory. -/
theorem again_below {canon : Path} {dir : Loc}
    (hroot : world.fs.resolve true (Path.ofBytes rootText) = .found dir)
    (hdir : world.fs.tree.isDir dir = true)
    (hresolves : Resolves world.fs (Path.ofBytes rootText) sftpPath canon)
    (hreads : ReadsAs world.fs ((Path.ofBytes rootText).join (relativePath sftpPath)) base rest)
    (hlinks : ¬ KeepsLink world.fs base rest) :
    (resolveSftpPath (Path.ofBytes rootText)
        (toClientPath (Path.ofBytes rootText) canon world).1 world).1 = .ok canon ↔
      (world.fs.tree.isDir (lexical base rest) = true → closing (lexical base rest) rest = []) := by
  obtain ⟨⟨below, hbelow⟩, hcanon⟩ := (resolves_iff_of_readsAs hroot hreads).mp hresolves
  have hentries := names_of_readsAs hreads
  have hsep := closing_cases (lexical base rest) rest
  have hentry := resolve_entry (Path.ofBytes_comps_ne rootText) hroot
  rw [hreads.keepsLink_iff] at hlinks
  rw [normalFrom, ← hbelow] at hcanon
  rw [← hbelow] at hentries hsep hlinks ⊢
  generalize closing (dir ++ below) rest = sep at hcanon hsep ⊢
  have hnames : ∀ name ∈ below, isEntryName name ∧ 0x2f ∉ name :=
    fun name hname ↦ hentries name (List.mem_append_right dir hname)
  have hresult : world.fs.weaklyCanonical ⟨(Path.ofBytes rootText).absolute,
      (Path.ofBytes rootText).entry.comps ++ if below = [] then [dot] else below ++ sep⟩ =
        .ok ⟨true, dir ++ below ++ if world.fs.tree.isDir (dir ++ below) then [] else sep⟩ := by
    by_cases hnil : below = []
    · obtain ⟨left, hwalk⟩ := resolve_from_dir hentry hdir (List.cons_ne_nil dot [])
      rw [walk_idle (.inr rfl), walk_nil] at hwalk
      rw [if_pos hnil, hnil, List.append_nil, hdir, if_pos rfl, List.append_nil]
      exact FileSystem.weaklyCanonical_of_found hwalk
    · rw [if_neg hnil]
      refine weaklyCanonical_below hentry hdir (fun name hname ↦ (hnames name hname).1)
        (fun part hpart target attr hget ↦ ?_) hsep
      exact hlinks ⟨dir ++ part, target, attr, (List.prefix_append_right_inj dir).mpr hpart, hget⟩
  rw [again_iff hfaults hresolves, hcanon, List.append_assoc,
    join_toClientPath hfaults (FileSystem.weaklyCanonical_of_found hroot) hnames hsep, hresult]
  by_cases hisDir : world.fs.tree.isDir (dir ++ below) = true
  · simp [hisDir]
  · simp [hisDir, List.append_assoc]

omit hfaults in
/-- A resolved path is the normal form of what it reads as. -/
theorem canon_of_reads {root canon : Path} (hresolves : Resolves world.fs root sftpPath canon)
    (hreads : ReadsAs world.fs (root.join (relativePath sftpPath)) base rest) :
    canon = normalFrom base rest := by
  obtain ⟨-, -, hcanon, -⟩ := hresolves
  rw [hreads.weaklyCanonical] at hcanon
  exact (Except.ok.inj hcanon).symm

/-- Under the empty root, whose paths all come back as the working directory. -/
theorem again_unrooted {canon : Path} (hroot : Path.ofBytes rootText = ⟨false, []⟩)
    (hresolves : Resolves world.fs (Path.ofBytes rootText) sftpPath canon)
    (hreads : ReadsAs world.fs ((Path.ofBytes rootText).join (relativePath sftpPath)) base rest) :
    (resolveSftpPath (Path.ofBytes rootText)
        (toClientPath (Path.ofBytes rootText) canon world).1 world).1 = .ok canon ↔
      lexical base rest = world.fs.cwd ∧ closing (lexical base rest) rest = [] := by
  have hcwd : world.fs.tree.isDir world.fs.cwd = true := by
    rw [hroot, join_relativePath] at hreads
    rcases hreads with ⟨hfound, -⟩ | ⟨-, found, -, hfound⟩
    · exact isDir_start (starts_of_found hfound)
    · exact isDir_start (starts_of_found hfound)
  have hcanonRoot : world.fs.weaklyCanonical ⟨false, []⟩ = .ok ⟨false, []⟩ := by
    have hmissing : world.fs.statusExists ⟨false, []⟩ = .ok false := rfl
    rw [FileSystem.weaklyCanonical, hmissing]
    rfl
  have hcanon := canon_of_reads hresolves hreads
  have hclient : (toClientPath ⟨false, []⟩ (normalFrom base rest) world).1 = [0x2f] := by
    have hcall := weaklyCanonical_of_nil hfaults ⟨false, []⟩
    rw [hcanonRoot] at hcall
    rw [toClientPath, bind_of_eq hcall]
    rfl
  have hwhole : world.fs.weaklyCanonical ((⟨false, []⟩ : Path).join (relativePath [0x2f])) =
      .ok ⟨true, world.fs.cwd⟩ := by
    refine FileSystem.weaklyCanonical_of_found ?_
    have hjoin : (⟨false, []⟩ : Path).join (relativePath [0x2f]) = ⟨false, [dot]⟩ := by decide
    rw [hjoin, FileSystem.resolve, if_neg (by simp [hcwd]), walk_idle (.inr rfl), walk_nil]
    rfl
  rw [again_iff hfaults hresolves, hcanon, hroot, hclient, hwhole, normalFrom, Except.ok.injEq,
    Posix.Path.mk.injEq, and_iff_right rfl]
  have hproper := isEntryName_of_get (FileTree.get_ne_none_of_isDir hcwd)
  constructor
  · intro heq
    rcases closing_cases (lexical base rest) rest with hsep | hsep
    · rw [hsep, List.append_nil] at heq
      exact ⟨heq.symm, hsep⟩
    · have hmem : [] ∈ world.fs.cwd := by
        rw [heq, hsep]
        exact List.mem_append_right _ List.mem_cons_self
      exact absurd rfl (isEntryName_ne_nil (hproper [] hmem))
  · rintro ⟨hnames, hsep⟩
    rw [hsep, hnames, List.append_nil]

omit hfaults in
/-- What comes after a beginning reads on from the names the beginning reads as. -/
theorem normalFrom_append {upper more : List Name} (hmore : more ≠ []) :
    normalFrom base (upper ++ more) = normalFrom (lexical base upper) more := by
  rw [normalFrom, normalFrom, lexical_append, closing, closing, endsOpen_append upper hmore]

omit hfaults in
/-- A `.` after some names reads as nothing and leaves a separator. -/
theorem normalFrom_dot (names : Loc) :
    normalFrom names [dot] = ⟨true, names ++ if names = [] then [] else [[]]⟩ := by
  have hread : lexical names [dot] = names := lexicalStep_idle (.inr rfl)
  have hopen : endsOpen [dot] = true := by decide
  rw [normalFrom, hread, closing, hopen]
  by_cases hnil : names = [] <;> simp [hnil]

omit hfaults in
/-- Names that begin a path with a separator at its end are among its names. -/
theorem prefix_of_prefix_closed {upper names sep : List Name}
    (hupper : ∀ name ∈ upper, isEntryName name) (hsep : sep = [] ∨ sep = [[]])
    (hunder : upper <+: names ++ sep) : upper <+: names := by
  rcases hsep with rfl | rfl
  · rwa [List.append_nil] at hunder
  · refine (List.prefix_concat_iff.mp hunder).resolve_left fun heq ↦ ?_
    exact isEntryName_ne_nil (hupper [] (by rw [heq]; simp)) rfl

omit hfaults in
/-- Names with a separator at their end that begin a path of entry names are all of it. -/
theorem eq_of_closed_prefix {upper names sep : List Name} (hnames : [] ∉ names)
    (hsep : sep = [] ∨ sep = [[]]) (hunder : upper ++ [[]] <+: names ++ sep) :
    names = upper ∧ sep = [[]] := by
  have houtside : ¬ upper ++ [[]] <+: names := fun h ↦
    hnames (h.subset (List.mem_append_right _ List.mem_cons_self))
  rcases hsep with rfl | rfl
  · rw [List.append_nil] at hunder
    exact absurd hunder houtside
  · have heq := (List.prefix_concat_iff.mp hunder).resolve_right houtside
    exact ⟨(List.append_cancel_right heq).symm, rfl⟩

omit hfaults in
/-- A root that is no directory reads on into every path that is joined to it. -/
theorem reads_of_absent {root : Path} (hcomps : root.comps ≠ [[]]) (hne : root ≠ ⟨false, []⟩)
    (hfile : ∀ dir, world.fs.resolve true root = .found dir → world.fs.tree.isDir dir = false)
    (hreads : ReadsAs world.fs (root.join (relativePath sftpPath)) base rest) :
    ∃ left rootRest, ReadsAs world.fs root base rootRest ∧
      lexical base rootRest = lexical base left ∧ rest = left ++ (relativePath sftpPath).comps ∧
        ∀ more, more ≠ [] →
          ReadsAs world.fs ⟨root.absolute, root.entry.comps ++ more⟩ base (left ++ more) := by
  have hnamed : ¬ (root.absolute = false ∧ root.entry.comps = []) := by
    rintro ⟨habsolute, hnil⟩
    rcases entry_comps_cases root with hentry | hentry
    · refine hne ?_
      rw [← habsolute, ← hnil, ← hentry]
    · exact hcomps (by rw [hentry, hnil, List.nil_append])
  have hentryFile : ∀ loc, world.fs.resolve true ⟨root.absolute, root.entry.comps⟩ = .found loc →
      world.fs.tree.isDir loc = false := by
    intro loc hfound
    by_contra hdir
    rw [Bool.not_eq_false] at hdir
    have hroot : world.fs.resolve true root = .found loc := by
      rcases entry_comps_cases root with hentry | hentry
      · rwa [← hentry] at hfound
      · obtain ⟨left, hwalk⟩ := resolve_from_dir hfound hdir (List.cons_ne_nil [] [])
        rwa [← hentry, walk_idle (.inl rfl), walk_nil] at hwalk
    rw [hfile loc hroot] at hdir
    exact Bool.false_ne_true hdir
  rw [join_relativePath] at hreads
  obtain ⟨left, hrest, hentryReads⟩ :=
    hreads.of_append (relativePath_comps_ne_nil sftpPath) hnamed hentryFile
  have hextend : ∀ more, more ≠ [] →
      ReadsAs world.fs ⟨root.absolute, root.entry.comps ++ more⟩ base (left ++ more) :=
    fun more hmore ↦ hentryReads.extend hentryFile hmore
  rcases entry_comps_cases root with hentry | hentry
  · refine ⟨left, left, ?_, rfl, hrest, hextend⟩
    rw [← hentry] at hentryReads
    exact hentryReads
  · refine ⟨left, left ++ [[]], ?_, ?_, hrest, hextend⟩
    · have hroot := hextend [[]] (List.cons_ne_nil [] [])
      rw [← hentry] at hroot
      exact hroot
    · rw [lexical_concat, lexicalStep_idle (.inl rfl)]

/-- Under a root that is no directory. -/
theorem again_absent {canon : Path} (hne : Path.ofBytes rootText ≠ ⟨false, []⟩)
    (hfile : ∀ dir, world.fs.resolve true (Path.ofBytes rootText) = .found dir →
      world.fs.tree.isDir dir = false)
    (hresolves : Resolves world.fs (Path.ofBytes rootText) sftpPath canon)
    (hreads : ReadsAs world.fs ((Path.ofBytes rootText).join (relativePath sftpPath)) base rest) :
    (resolveSftpPath (Path.ofBytes rootText)
        (toClientPath (Path.ofBytes rootText) canon world).1 world).1 = .ok canon ↔
      (world.fs.weaklyCanonical (Path.ofBytes rootText) = .ok ⟨true, lexical base rest⟩ →
        closing (lexical base rest) rest = [] → lexical base rest = []) := by
  obtain ⟨left, rootRest, hrootReads, hrootNames, -, hextend⟩ :=
    reads_of_absent (Path.ofBytes_comps_ne rootText) hne hfile hreads
  have hentries := names_of_readsAs hreads
  have hnotNil : [] ∉ lexical base rest := fun hmem ↦
    isEntryName_ne_nil (hentries [] hmem).1 rfl
  have hsep := closing_cases (lexical base rest) rest
  have hroot : world.fs.weaklyCanonical (Path.ofBytes rootText) =
      .ok ⟨true, lexical base left ++ closing (lexical base left) rootRest⟩ := by
    rw [hrootReads.weaklyCanonical, normalFrom, hrootNames]
  have hcanon : canon = ⟨true, lexical base rest ++ closing (lexical base rest) rest⟩ :=
    canon_of_reads hresolves hreads
  have hunder : lexical base left ++ closing (lexical base left) rootRest <+:
      lexical base rest ++ closing (lexical base rest) rest := by
    obtain ⟨canonRoot, hcanonRoot, -, helements⟩ := id hresolves
    rw [hroot] at hcanonRoot
    rw [← Except.ok.inj hcanonRoot, hcanon] at helements
    exact (elements_prefix_iff rfl).mp helements
  have hjoined : ∀ more, more ≠ [] → world.fs.weaklyCanonical
      ⟨(Path.ofBytes rootText).absolute, (Path.ofBytes rootText).entry.comps ++ more⟩ =
        .ok (normalFrom (lexical base left) more) := fun more hmore ↦ by
    rw [(hextend more hmore).weaklyCanonical, normalFrom_append hmore]
  have hdot := normalFrom_dot (lexical base left)
  have hleft : ∀ name ∈ lexical base left, isEntryName name :=
    fun name ↦ isEntryName_of_mem_lexical (isEntryName_of_get hreads.exists_base)
  have hclosed : lexical base rest = [] → closing (lexical base rest) rest = [] :=
    fun hnil ↦ if_neg fun h ↦ h.2 hnil
  rw [again_iff hfaults hresolves, hcanon]
  generalize closing (lexical base rest) rest = sep at hsep hunder hclosed ⊢
  rcases closing_cases (lexical base left) rootRest with hrootSep | hrootSep
  · rw [hrootSep, List.append_nil] at hroot hunder
    obtain ⟨below, hbelow⟩ := prefix_of_prefix_closed hleft hsep hunder
    rw [← hbelow] at hentries hclosed ⊢
    have hnames : ∀ name ∈ below, isEntryName name ∧ 0x2f ∉ name :=
      fun name hname ↦ hentries name (List.mem_append_right _ hname)
    rw [List.append_assoc, join_toClientPath hfaults hroot hnames hsep, hroot]
    by_cases hnil : below = []
    · rw [if_pos hnil, hjoined [dot] (List.cons_ne_nil dot []), hdot]
      by_cases htop : lexical base left = []
      · simp [htop, hnil, hclosed]
      · rcases hsep with rfl | rfl <;> simp [htop, hnil]
    · rw [if_neg hnil, hjoined _ (List.append_ne_nil_of_left_ne_nil hnil sep),
        normalFrom_names _ _ (fun name hname ↦ (hnames name hname).1) (by simp [hnil]) hsep,
        List.append_assoc]
      simp [hnil]
  · rw [hrootSep] at hroot hunder
    have htop : lexical base left ≠ [] := by
      intro hnil
      simp [closing, hnil] at hrootSep
    obtain ⟨hsame, rfl⟩ := eq_of_closed_prefix hnotNil hsep hunder
    have hback := join_toClientPath hfaults hroot (fun name h ↦ absurd h List.not_mem_nil)
      (Or.inl (rfl : ([] : List Name) = []))
    rw [List.append_nil, List.append_nil, if_pos rfl] at hback
    rw [hsame, hback, hjoined [dot] (List.cons_ne_nil dot []), hdot, hroot]
    simp [htop]

end Again

/-- A resolved path comes back as itself exactly if its separator is kept, provided that it
meets no link. -/
theorem again_iff_separatorKept {world : World} (hfaults : world.faults = [])
    {rootText sftpPath : Bytes} {base : Loc} {rest : List Name} {canon : Path}
    (hresolves : Resolves world.fs (Path.ofBytes rootText) sftpPath canon)
    (hreads : ReadsAs world.fs ((Path.ofBytes rootText).join (relativePath sftpPath)) base rest)
    (hlinks : ¬ KeepsLink world.fs base rest) :
    (resolveSftpPath (Path.ofBytes rootText)
        (toClientPath (Path.ofBytes rootText) canon world).1 world).1 = .ok canon ↔
      SeparatorKept world.fs (Path.ofBytes rootText) base rest := by
  by_cases hempty : Path.ofBytes rootText = ⟨false, []⟩
  · have hnowhere : ∀ dir, world.fs.resolve true (Path.ofBytes rootText) ≠ .found dir := by
      intro dir
      rw [hempty]
      exact fun h ↦ nomatch h
    rw [again_unrooted hfaults hempty hresolves hreads]
    exact ⟨fun h ↦ ⟨fun _ ↦ h, fun dir hdir ↦ absurd hdir (hnowhere dir),
      fun hne ↦ absurd hempty hne⟩, fun h ↦ h.unrooted hempty⟩
  · by_cases hroot : ∃ dir, world.fs.resolve true (Path.ofBytes rootText) = .found dir ∧
      world.fs.tree.isDir dir = true
    · obtain ⟨dir, hfound, hdir⟩ := hroot
      rw [again_below hfaults hfound hdir hresolves hreads hlinks]
      refine ⟨fun h ↦ ⟨fun heq ↦ absurd heq hempty, fun _ _ _ ↦ h, fun _ hfile ↦ ?_⟩,
        fun h ↦ h.below dir hfound hdir⟩
      rw [hfile dir hfound] at hdir
      exact absurd hdir Bool.false_ne_true
    · have hfile : ∀ dir, world.fs.resolve true (Path.ofBytes rootText) = .found dir →
          world.fs.tree.isDir dir = false := fun dir hfound ↦ by
        by_contra hdir
        exact hroot ⟨dir, hfound, by simpa using hdir⟩
      rw [again_absent hfaults hempty hfile hresolves hreads]
      refine ⟨fun h ↦ ⟨fun heq ↦ absurd heq hempty, fun dir hfound hdir ↦ ?_, fun _ _ ↦ h⟩,
        fun h ↦ h.absent hempty hfile⟩
      exact absurd ⟨dir, hfound, hdir⟩ hroot

theorem settled_iff {world : World} (hfaults : world.faults = []) {rootText sftpPath : Bytes}
    {canon : Path} (hresolves : Resolves world.fs (Path.ofBytes rootText) sftpPath canon) :
    Settled world (Path.ofBytes rootText) canon ↔
      ∃ base rest,
        ReadsAs world.fs ((Path.ofBytes rootText).join (relativePath sftpPath)) base rest ∧
          ¬ KeepsLink world.fs base rest ∧
            SeparatorKept world.fs (Path.ofBytes rootText) base rest := by
  obtain ⟨canonRoot, hroot, hcanon, hunder⟩ := id hresolves
  constructor
  · intro h
    obtain ⟨base, rest, hreads⟩ := readsAs_of_weaklyCanonical hcanon h.absolute
    have hnames : ∀ name ∈ lexical base rest, isEntryName name :=
      fun name hname ↦ (names_of_readsAs hreads name hname).1
    have hlinks : ¬ KeepsLink world.fs base rest := by
      rw [hreads.keepsLink_iff, ← isLink_iff hnames]
      rintro ⟨upper, hupper, hlink⟩
      rw [hreads.weaklyCanonical] at hcanon
      rw [← Except.ok.inj hcanon] at h
      exact h.noLink upper (hupper.trans (List.prefix_append _ _)) hlink
    exact ⟨base, rest, hreads, hlinks,
      (again_iff_separatorKept hfaults hresolves hreads hlinks).mp h.again⟩
  · rintro ⟨base, rest, hreads, hlinks, hkept⟩
    have hnames : ∀ name ∈ lexical base rest, isEntryName name :=
      fun name hname ↦ (names_of_readsAs hreads name hname).1
    have hagain := (again_iff_separatorKept hfaults hresolves hreads hlinks).mpr hkept
    rw [hreads.keepsLink_iff] at hlinks
    rw [hreads.weaklyCanonical] at hcanon
    obtain rfl := Except.ok.inj hcanon
    have hfree : ∀ below, below <+: lexical base rest → ∀ target attr,
        world.fs.tree.get ([] ++ below) ≠ some (.symlink target attr) :=
      fun below hbelow target attr hget ↦ hlinks ⟨below, target, attr, hbelow, hget⟩
    have hitself : ∀ follow loc, world.fs.resolve follow (normalFrom base rest) = .found loc →
        loc = lexical base rest := by
      intro follow loc hfound
      rw [normalFrom, FileSystem.resolve_absolute] at hfound
      exact walk_names_found hnames hfree (closing_cases _ _) hfound
    refine ⟨⟨canonRoot, hroot, hunder⟩, rfl, fun upper hupper hlink ↦ ?_,
      fun follow loc hfound ↦ ?_, hagain⟩
    · by_cases hinside : upper <+: lexical base rest
      · exact hlinks ((isLink_iff hnames).mp ⟨upper, hinside, hlink⟩)
      · have hwhole : upper = (normalFrom base rest).comps := by
          rw [normalFrom] at hupper ⊢
          rcases closing_cases (lexical base rest) rest with hsep | hsep
          · rw [hsep, List.append_nil] at hupper
            exact absurd hupper hinside
          · rw [hsep] at hupper ⊢
            exact (List.prefix_concat_iff.mp hupper).resolve_right hinside
        obtain ⟨loc, target, attr, hfound, hget⟩ := hlink
        rw [hwhole] at hfound
        rw [hitself false loc hfound] at hget
        exact hlinks ⟨_, target, attr, List.prefix_refl _, hget⟩
    · rw [hitself follow loc hfound, normalFrom, entry_comps_names true rest hnames]

/-- Over every file system, root and client path: what `resolve_sftp_path` returns lies
under the canonical root, is canonical and comes back as itself exactly if the components
after the longest beginning that exists keep no link and the separator after them is
kept. -/
theorem resolveSftpPath_settled_iff {world : World} (hfaults : world.faults = [])
    (rootText sftpPath : Bytes) :
    (∀ canon, (resolveSftpPath (Path.ofBytes rootText) sftpPath world).1 = .ok canon →
        Settled world (Path.ofBytes rootText) canon) ↔
      ∀ canon, (resolveSftpPath (Path.ofBytes rootText) sftpPath world).1 = .ok canon →
        ∃ base rest,
          ReadsAs world.fs ((Path.ofBytes rootText).join (relativePath sftpPath)) base rest ∧
            ¬ KeepsLink world.fs base rest ∧
              SeparatorKept world.fs (Path.ofBytes rootText) base rest :=
  forall_congr' fun _ ↦ forall_congr' fun hcanon ↦
    settled_iff hfaults ((resolveSftpPath_eq_ok_iff hfaults).mp hcanon)

/-- The path `l` is that of a link, which exists and is followed. -/
theorem resolveSftpPath_settled_link :
    let world : World := { fs := linkedFile }
    (∃ canon, (resolveSftpPath (Path.ofBytes (ascii "/srv")) (ascii "l") world).1 = .ok canon) ∧
      ∀ canon, (resolveSftpPath (Path.ofBytes (ascii "/srv")) (ascii "l") world).1 = .ok canon →
        Settled world (Path.ofBytes (ascii "/srv")) canon := by
  refine ⟨⟨⟨true, [ascii "srv", ascii "f"]⟩, by decide +kernel⟩, ?_⟩
  refine (resolveSftpPath_settled_iff rfl (ascii "/srv") (ascii "l")).mpr fun canon _ ↦
    ⟨[ascii "srv", ascii "f"], [], .inl ⟨by decide +kernel, rfl⟩, ?_, ?_⟩
  · rintro ⟨before, name, after, -, -, hrest, -⟩
    exact absurd hrest.symm (by simp)
  · refine ⟨fun h ↦ absurd h (by decide), fun _ _ _ _ ↦ rfl, fun _ hfile ↦ ?_⟩
    exact absurd (hfile [ascii "srv"] (by decide +kernel)) (by decide)

/-- `x/../l` leads back from the missing `x` to the link. -/
theorem resolveSftpPath_returns_link :
    ¬ ∀ canon, (resolveSftpPath (Path.ofBytes (ascii "/srv")) (ascii "x/../l")
        { fs := linkedFile }).1 = .ok canon →
      Settled { fs := linkedFile } (Path.ofBytes (ascii "/srv")) canon := by
  intro hsettled
  have h := hsettled ⟨true, [ascii "srv", ascii "l"]⟩ (by decide +kernel)
  exact h.noLink _ (List.prefix_refl _) ⟨[ascii "srv", ascii "l"], ⟨ascii "f", by decide⟩, {},
    by decide +kernel, by decide +kernel⟩

end LibSshpp.SftpServer
