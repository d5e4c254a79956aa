import LibSshpp.Posix.LexicalPaths

/-!
The text of a pathname and the beginnings of it that end between two components. A
beginning has a beginning of the names, whatever slashes stand between them, also when
a callee sees no more of the text than what comes before a NUL.
-/

set_option autoImplicit false
set_option relaxedAutoImplicit false

namespace LibSshpp.Posix

/-! ### Names of a text -/

/-- The segments of a text that are not empty. -/
def pathNames (text : Bytes) : List Name := (segments text).filter (· ≠ [])

theorem ofBytes_absolute (text : Bytes) :
    (Path.ofBytes text).absolute = decide (text.head? = some 0x2f) := rfl

theorem ofBytes_comps (text : Bytes) : (Path.ofBytes text).comps =
    if pathNames text ≠ [] ∧ (segments text).getLast? = some [] then pathNames text ++ [[]]
    else pathNames text := rfl

theorem ofBytes_entry (text : Bytes) : (Path.ofBytes text).entry.comps = pathNames text := by
  have hcomps := ofBytes_comps text
  have hlast : (pathNames text).getLast? ≠ some [] := by
    intro hlast
    simpa using (List.mem_filter.mp (List.mem_of_getLast? hlast)).2
  unfold Path.entry
  rw [hcomps]
  by_cases hopen : pathNames text ≠ [] ∧ (segments text).getLast? = some []
  · rw [if_pos hopen, if_pos List.getLast?_concat]
    exact List.dropLast_concat
  · rw [if_neg hopen, if_neg hlast, hcomps, if_neg hopen]

theorem ofBytes_named {text : Bytes} (hne : text ≠ []) :
    ¬ ((Path.ofBytes text).absolute = false ∧ (Path.ofBytes text).entry.comps = []) := by
  rintro ⟨hrelative, hentry⟩
  rcases entry_comps_cases (Path.ofBytes text) with hcomps | hcomps
  · refine Path.ofBytes_comps_ne_nil hne ?_ (hcomps.trans hentry)
    simpa [Path.ofBytes] using hrelative
  · rw [hentry] at hcomps
    exact Path.ofBytes_comps_ne text hcomps

theorem segments_ne_nil (text : Bytes) : segments text ≠ [] := by
  cases text with
  | nil => exact List.cons_ne_nil _ _
  | cons byte rest =>
    rw [segments]
    split_ifs
    · exact List.cons_ne_nil _ _
    · split <;> exact List.cons_ne_nil _ _

/-- A byte that is no slash begins the first segment. -/
theorem segments_cons {byte : UInt8} (h : byte ≠ 0x2f) (rest : Bytes) :
    ∃ first others, segments rest = first :: others ∧
      segments (byte :: rest) = (byte :: first) :: others := by
  obtain ⟨first, others, hrest⟩ := List.exists_cons_of_ne_nil (segments_ne_nil rest)
  exact ⟨first, others, hrest, by rw [segments, if_neg h, hrest]⟩

theorem segments_append_slash (first rest : Bytes) :
    segments (first ++ 0x2f :: rest) = segments first ++ segments rest := by
  induction first with
  | nil => simp [segments]
  | cons byte first ih =>
    by_cases hslash : byte = 0x2f
    · rw [List.cons_append, segments, if_pos hslash, segments, if_pos hslash, ih,
        List.cons_append]
    · obtain ⟨part, others, hfirst, hbyte⟩ := segments_cons hslash first
      obtain ⟨part', others', hwhole, hbyte'⟩ := segments_cons hslash (first ++ 0x2f :: rest)
      rw [ih, hfirst, List.cons_append] at hwhole
      obtain ⟨rfl, rfl⟩ := List.cons.inj hwhole
      rw [List.cons_append, hbyte', hbyte, List.cons_append]

theorem pathNames_append_slash (first rest : Bytes) :
    pathNames (first ++ 0x2f :: rest) = pathNames first ++ pathNames rest := by
  rw [pathNames, segments_append_slash, List.filter_append]
  rfl

theorem pathNames_of_notMem {name : Name} (hne : name ≠ []) (h : 0x2f ∉ name) :
    pathNames name = [name] := by
  rw [pathNames, segments_of_notMem h, List.filter_cons_of_pos (by simpa using hne),
    List.filter_nil]

/-- The names of a path hold no slash and are not empty. -/
theorem mem_pathNames {text : Bytes} {name : Name} (h : name ∈ pathNames text) :
    name ≠ [] ∧ 0x2f ∉ name := by
  obtain ⟨hmem, hne⟩ := List.mem_filter.mp h
  exact ⟨by simpa using hne, slash_notMem_segments hmem⟩

/-! ### Beginnings of a text -/

/-- A beginning of a path that ends between two components: what is left of the path is
empty or set apart by a slash. -/
structure TextPrefix (first path : Bytes) : Prop where
  ne_nil : first ≠ []
  rest : ∃ rest, path = first ++ rest ∧
    (rest = [] ∨ rest.head? = some 0x2f ∨ first.getLast? = some 0x2f)

theorem TextPrefix.refl {path : Bytes} (hne : path ≠ []) : TextPrefix path path :=
  ⟨hne, [], (List.append_nil path).symm, .inl rfl⟩

theorem TextPrefix.head {first path : Bytes} (h : TextPrefix first path) :
    first.head? = path.head? := by
  obtain ⟨rest, rfl, -⟩ := h.rest
  exact (List.head?_append_of_ne_nil first h.ne_nil).symm

theorem TextPrefix.pathNames {first path : Bytes} (h : TextPrefix first path) :
    pathNames first <+: pathNames path := by
  obtain ⟨rest, rfl, rfl | hslash | hslash⟩ := h.rest
  · rw [List.append_nil]
  · obtain ⟨others, rfl⟩ := List.head?_eq_some_iff.mp hslash
    rw [pathNames_append_slash]
    exact List.prefix_append _ _
  · obtain ⟨upper, rfl⟩ := List.getLast?_eq_some_iff.mp hslash
    rw [List.append_assoc, List.singleton_append, pathNames_append_slash, pathNames_append_slash]
    exact (List.prefix_append_right_inj _).mpr List.nil_prefix

/-- A beginning of what follows a slash, with what comes before. -/
theorem TextPrefix.append {first path : Bytes} (h : TextPrefix first path) (segment : Bytes) :
    TextPrefix (segment ++ 0x2f :: first) (segment ++ 0x2f :: path) where
  ne_nil := by simp
  rest := by
    obtain ⟨rest, rfl, hends⟩ := h.rest
    refine ⟨rest, by simp, hends.imp_right (Or.imp_right fun hlast ↦ ?_)⟩
    rw [List.getLast?_append_of_ne_nil _ (List.cons_ne_nil _ _),
      ← List.singleton_append, List.getLast?_append_of_ne_nil _ h.ne_nil]
    exact hlast

/-- A beginning of the names is the names of a beginning. -/
theorem exists_textPrefix (path : Bytes) :
    ∀ {taken : List Name}, taken ≠ [] → taken <+: pathNames path →
      ∃ first, TextPrefix first path ∧ pathNames first = taken := by
  induction hlength : path.length using Nat.strong_induction_on generalizing path with
  | h length ih =>
    intro taken hne htaken
    by_cases hslash : 0x2f ∈ path
    · obtain ⟨segment, rest, rfl, hsegment⟩ := List.eq_append_cons_of_mem hslash
      have hshorter : rest.length < length := by
        rw [← hlength, List.length_append, List.length_cons]
        omega
      rw [pathNames_append_slash] at htaken
      by_cases hempty : segment = []
      · subst hempty
        obtain ⟨first, hfirst, hnames⟩ := ih rest.length hshorter rest rfl hne htaken
        exact ⟨[] ++ 0x2f :: first, hfirst.append [], hnames⟩
      · rw [pathNames_of_notMem hempty hsegment, List.singleton_append] at htaken
        obtain ⟨name, others, rfl⟩ := List.exists_cons_of_ne_nil hne
        obtain ⟨rfl, hothers⟩ := List.cons_prefix_cons.mp htaken
        by_cases hmore : others = []
        · subst hmore
          refine ⟨name, ⟨hempty, 0x2f :: rest, rfl, .inr (.inl rfl)⟩, ?_⟩
          exact pathNames_of_notMem hempty hsegment
        · obtain ⟨first, hfirst, hnames⟩ := ih rest.length hshorter rest rfl hmore hothers
          refine ⟨name ++ 0x2f :: first, hfirst.append name, ?_⟩
          rw [pathNames_append_slash, pathNames_of_notMem hempty hsegment, hnames,
            List.singleton_append]
    · by_cases hempty : path = []
      · rw [hempty] at htaken
        exact absurd (List.prefix_nil.mp htaken) hne
      · rw [pathNames_of_notMem hempty hslash] at htaken
        have hconcat : taken <+: [] ++ [path] := htaken
        refine ⟨path, .refl hempty, ?_⟩
        rw [pathNames_of_notMem hempty hslash]
        rcases List.prefix_concat_iff.mp hconcat with hall | hnil
        · exact hall.symm
        · exact absurd (List.prefix_nil.mp hnil) hne

/-! ### Joined texts -/

/-- The text of `operator/` before a relative path. -/
def joinTexts (first rest : Bytes) : Bytes :=
  if first = [] ∨ first.getLast? = some 0x2f then first ++ rest else first ++ 0x2f :: rest

theorem pathNames_ne_nil {text : Bytes} (hne : text ≠ []) (hrelative : text.head? ≠ some 0x2f) :
    pathNames text ≠ [] := by
  intro hnil
  refine Path.ofBytes_comps_ne_nil hne hrelative ?_
  rw [ofBytes_comps, hnil, if_neg fun h ↦ h.1 rfl]

/-- The components after a slash. -/
theorem ofBytes_append_slash (first : Bytes) {rest : Bytes} (hne : rest ≠ [])
    (hrelative : rest.head? ≠ some 0x2f) :
    (Path.ofBytes (first ++ 0x2f :: rest)).comps =
      pathNames first ++ (Path.ofBytes rest).comps := by
  have hnames : pathNames rest ≠ [] := pathNames_ne_nil hne hrelative
  have hlast : (segments first ++ segments rest).getLast? = (segments rest).getLast? :=
    List.getLast?_append_of_ne_nil _ (segments_ne_nil rest)
  rw [ofBytes_comps, ofBytes_comps, pathNames_append_slash, segments_append_slash, hlast]
  by_cases hopen : (segments rest).getLast? = some []
  · rw [if_pos ⟨List.append_ne_nil_of_right_ne_nil _ hnames, hopen⟩, if_pos ⟨hnames, hopen⟩,
      List.append_assoc]
  · rw [if_neg fun h ↦ hopen h.2, if_neg fun h ↦ hopen h.2]

/-- The text that is handed to the kernel for a joined path is read as that path. -/
theorem ofBytes_joinTexts (first : Bytes) {rest : Bytes} (hne : rest ≠ [])
    (hrelative : rest.head? ≠ some 0x2f) :
    Path.ofBytes (joinTexts first rest) = (Path.ofBytes first).join (Path.ofBytes rest) := by
  have habsolute : (Path.ofBytes rest).absolute = false := by
    rw [ofBytes_absolute]
    exact decide_eq_false hrelative
  rw [Path.join, habsolute, if_neg Bool.false_ne_true,
    if_neg (Path.ofBytes_comps_ne_nil hne hrelative), joinTexts, ofBytes_entry]
  by_cases hempty : first = []
  · rw [if_pos (Or.inl hempty), hempty, List.nil_append]
    exact congrArg (Path.mk · (Path.ofBytes rest).comps) habsolute
  · by_cases hslash : first.getLast? = some 0x2f
    · obtain ⟨upper, rfl⟩ := List.getLast?_eq_some_iff.mp hslash
      have hsame : pathNames (upper ++ [0x2f]) = pathNames upper := by
        rw [pathNames_append_slash]
        exact List.append_nil _
      have hhead : (upper ++ 0x2f :: rest).head? = (upper ++ [0x2f]).head? := by
        cases upper <;> rfl
      rw [if_pos (Or.inr hslash), List.append_assoc, List.singleton_append, hsame]
      refine (congrArg (Path.mk _) (ofBytes_append_slash upper hne hrelative)).trans ?_
      rw [hhead]
      rfl
    · have hhead : (first ++ 0x2f :: rest).head? = first.head? :=
        List.head?_append_of_ne_nil first hempty
      rw [if_neg (not_or.mpr ⟨hempty, hslash⟩)]
      refine (congrArg (Path.mk _) (ofBytes_append_slash first hne hrelative)).trans ?_
      rw [hhead]
      rfl

/-! ### The limits of the kernel -/

/-- `NAME_MAX`. -/
def nameMax : ℕ := 255

/-- `PATH_MAX`, which counts the final NUL. -/
def pathMax : ℕ := 4096

/-- The kernel refuses a pathname with ENAMETOOLONG: it does not fit, or a name that is
looked up in a directory is too long. -/
def FileSystem.overLimit (fs : FileSystem) (text : Bytes) : Bool :=
  pathMax ≤ text.length ||
    match fs.resolve true (Path.ofBytes text) with
    | .missing _ name _ => nameMax < name.length
    | _ => false

/-- A walk that meets no link misses one of its own components. -/
theorem mem_of_walk_missing {tree : FileTree}
    (hlinks : ∀ loc target attr, tree.get loc ≠ some (.symlink target attr)) {links : ℕ}
    {cur dir : Loc} {comps rest : List Name} {name : Name}
    (h : walk tree true links cur comps = .missing dir name rest) : name ∈ comps := by
  induction links, cur, comps using walk_induction tree true with
  | nil links cur =>
    rw [walk_nil] at h
    exact nomatch h
  | idle links cur comp rest hidle ih =>
    rw [walk_idle hidle] at h
    exact List.mem_cons_of_mem _ (ih h)
  | up links cur rest ih =>
    rw [walk_dotdot] at h
    exact List.mem_cons_of_mem _ (ih h)
  | absent links cur comp rest hentry hget =>
    rw [walk_absent hentry hget] at h
    obtain ⟨-, rfl, -⟩ := Walk.missing.inj h
    exact List.mem_cons_self
  | dir links cur comp rest ino hentry hget ih =>
    rw [walk_dir hentry hget] at h
    exact List.mem_cons_of_mem _ (ih h)
  | file links cur comp rest ino hentry hget =>
    rw [walk_file hentry hget] at h
    split_ifs at h
  | kept links cur comp target attr hentry hget => exact absurd hget (hlinks _ target attr)
  | exhausted cur comp rest target attr hentry hget => exact absurd hget (hlinks _ target attr)
  | link links cur comp rest target attr hentry hget => exact absurd hget (hlinks _ target attr)

/-- Without links a short text of short names is within the limits. -/
theorem overLimit_of_short {fs : FileSystem}
    (hlinks : ∀ loc target attr, fs.tree.get loc ≠ some (.symlink target attr)) {text : Bytes}
    (htext : text.length < pathMax)
    (hnames : ∀ name ∈ (Path.ofBytes text).comps, name.length ≤ nameMax) :
    fs.overLimit text = false := by
  rw [FileSystem.overLimit, decide_eq_false (Nat.not_le.mpr htext), Bool.false_or]
  rcases hresolve : fs.resolve true (Path.ofBytes text) with loc | ⟨dir, name, rest⟩ | error
  · rfl
  · refine decide_eq_false (Nat.not_lt.mpr (hnames name ?_))
    rw [FileSystem.resolve] at hresolve
    split_ifs at hresolve
    · exact mem_of_walk_missing hlinks hresolve
    · exact mem_of_walk_missing hlinks hresolve
  · rfl

/-! ### Texts with a NUL -/

/-- The segments of what comes before the first NUL. -/
def cutSegments : List Name → List Name
  | [] => []
  | segment :: rest => if 0 ∈ segment then [cString segment] else segment :: cutSegments rest

theorem segments_cString (text : Bytes) :
    segments (cString text) = cutSegments (segments text) := by
  induction text with
  | nil => rfl
  | cons byte rest ih =>
    by_cases hslash : byte = 0x2f
    · have hcut : cString (byte :: rest) = byte :: cString rest :=
        List.takeWhile_cons_of_pos (by simp [hslash])
      rw [hcut, segments, if_pos hslash, segments, if_pos hslash, cutSegments,
        if_neg List.not_mem_nil, ih]
    · obtain ⟨first, others, hrest, hbyte⟩ := segments_cons hslash rest
      rw [hbyte, cutSegments]
      by_cases hnul : byte = 0
      · have hcut : ∀ more, cString (byte :: more) = [] :=
          fun more ↦ List.takeWhile_cons_of_neg (by simp [hnul])
        rw [hcut, hcut, if_pos (hnul ▸ List.mem_cons_self)]
        rfl
      · have hcut : ∀ more, cString (byte :: more) = byte :: cString more :=
          fun more ↦ List.takeWhile_cons_of_pos (by simp [hnul])
        obtain ⟨part, parts, hcutRest, hcutByte⟩ := segments_cons hslash (cString rest)
        rw [ih, hrest, cutSegments] at hcutRest
        rw [hcut, hcut, hcutByte]
        have hmem : 0 ∈ byte :: first ↔ 0 ∈ first := by simp [Ne.symm hnul]
        by_cases hlater : 0 ∈ first
        · rw [if_pos hlater] at hcutRest
          obtain ⟨rfl, rfl⟩ := List.cons.inj hcutRest
          rw [if_pos (hmem.mpr hlater)]
        · rw [if_neg hlater] at hcutRest
          obtain ⟨rfl, rfl⟩ := List.cons.inj hcutRest
          rw [if_neg (mt hmem.mp hlater)]

theorem filter_cutSegments (parts : List Name) : (cutSegments parts).filter (· ≠ []) =
    (cutSegments (parts.filter (· ≠ []))).filter (· ≠ []) := by
  induction parts with
  | nil => rfl
  | cons part rest ih =>
    by_cases hempty : part = []
    · rw [List.filter_cons_of_neg (by simp [hempty]), ← ih, cutSegments,
        if_neg (by simp [hempty]), List.filter_cons_of_neg (by simp [hempty])]
    · rw [List.filter_cons_of_pos (by simp [hempty]), cutSegments, cutSegments]
      split_ifs
      · rfl
      · rw [List.filter_cons_of_pos (by simp [hempty]), List.filter_cons_of_pos (by simp [hempty]),
          ih]

theorem cutSegments_isPrefix {first second : List Name} (h : first <+: second) :
    cutSegments first <+: cutSegments second := by
  obtain ⟨rest, rfl⟩ := h
  induction first with
  | nil => exact List.nil_prefix
  | cons part first ih =>
    rw [List.cons_append, cutSegments, cutSegments]
    split_ifs
    · exact List.prefix_rfl
    · exact List.cons_prefix_cons.mpr ⟨rfl, ih⟩

/-- The names a callee sees depend on the names alone, and a beginning of them shows a
beginning. -/
theorem pathNames_cString (text : Bytes) :
    pathNames (cString text) = (cutSegments (pathNames text)).filter (· ≠ []) := by
  rw [pathNames, segments_cString, filter_cutSegments]
  rfl

theorem pathNames_cString_isPrefix {first second : Bytes}
    (h : pathNames first <+: pathNames second) :
    pathNames (cString first) <+: pathNames (cString second) := by
  rw [pathNames_cString, pathNames_cString]
  exact (cutSegments_isPrefix h).filter _

end LibSshpp.Posix
