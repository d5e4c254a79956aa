import LibSshpp.Posix.LinkEntries

/-!
Reading a path by its components alone, where `..` takes back the name before it. The
kernel reads a path so as long as it meets no symbolic link, and `weakly_canonical`
reads so what comes after the longest beginning that exists.
-/

set_option autoImplicit false
set_option relaxedAutoImplicit false

namespace LibSshpp.Posix

/-! ### Lexical readings -/

def lexicalStep (dir : List Name) (comp : Name) : List Name :=
  if isIdle comp then dir else if comp = dotdot then dir.dropLast else dir ++ [comp]

/-- The names that components lead to from `dir`. -/
def lexical (dir comps : List Name) : List Name := comps.foldl lexicalStep dir

/-- The components end in `.`, `..` or a separator. -/
def endsOpen (comps : List Name) : Bool := comps.getLast?.any fun comp ↦ ¬ isEntryName comp

/-- The separator that a normal form keeps after these names. -/
def closing (names comps : List Name) : List Name :=
  if endsOpen comps = true ∧ names ≠ [] then [[]] else []

section Lexical

variable {dir comps : List Name} {comp : Name}

@[simp] theorem lexical_nil (dir : List Name) : lexical dir [] = dir := rfl

theorem lexical_cons (dir : List Name) (comp : Name) (rest : List Name) :
    lexical dir (comp :: rest) = lexical (lexicalStep dir comp) rest := rfl

theorem lexical_append (dir first second : List Name) :
    lexical dir (first ++ second) = lexical (lexical dir first) second := List.foldl_append

theorem lexical_concat (dir comps : List Name) (comp : Name) :
    lexical dir (comps ++ [comp]) = lexicalStep (lexical dir comps) comp := lexical_append _ _ _

theorem lexicalStep_idle (h : isIdle comp) : lexicalStep dir comp = dir := if_pos h

theorem lexicalStep_dotdot : lexicalStep dir dotdot = dir.dropLast := by
  rw [lexicalStep, if_neg (by decide), if_pos rfl]

theorem lexicalStep_name (h : isEntryName comp) : lexicalStep dir comp = dir ++ [comp] := by
  rw [lexicalStep, if_neg h.1, if_neg h.2]

/-- A component is idle, climbs, or is a name. -/
theorem comp_cases (comp : Name) : isIdle comp ∨ comp = dotdot ∨ isEntryName comp := by
  by_cases hidle : isIdle comp
  · exact .inl hidle
  · by_cases hup : comp = dotdot
    · exact .inr (.inl hup)
    · exact .inr (.inr ⟨hidle, hup⟩)

theorem isEntryName_ne_nil (h : isEntryName comp) : comp ≠ [] := fun hnil ↦ h.1 (.inl hnil)

theorem lexical_names {names : List Name} (h : ∀ name ∈ names, isEntryName name) :
    lexical dir names = dir ++ names := by
  induction names generalizing dir with
  | nil => rw [lexical_nil, List.append_nil]
  | cons name rest ih =>
    rw [lexical_cons, lexicalStep_name (h name List.mem_cons_self),
      ih fun other hother ↦ h other (List.mem_cons_of_mem _ hother), List.append_assoc,
      List.singleton_append]

theorem mem_lexical {name : Name} (h : name ∈ lexical dir comps) :
    name ∈ dir ∨ (name ∈ comps ∧ isEntryName name) := by
  induction comps using List.reverseRecOn with
  | nil => exact .inl h
  | append_singleton comps comp ih =>
    have hstep : ∀ other ∈ lexical dir comps, other = name →
        name ∈ dir ∨ (name ∈ comps ++ [comp] ∧ isEntryName name) := by
      rintro other hother rfl
      exact (ih hother).imp id fun hname ↦ ⟨List.mem_append_left _ hname.1, hname.2⟩
    rw [lexical_concat] at h
    rcases comp_cases comp with hidle | rfl | hname
    · rw [lexicalStep_idle hidle] at h
      exact hstep name h rfl
    · rw [lexicalStep_dotdot] at h
      exact hstep name (List.mem_of_mem_dropLast h) rfl
    · rw [lexicalStep_name hname, List.mem_append, List.mem_singleton] at h
      rcases h with h | rfl
      · exact hstep name h rfl
      · exact .inr ⟨by simp, hname⟩

/-- Reading keeps the names fit to be read again. -/
theorem isEntryName_of_mem_lexical (hdir : ∀ name ∈ dir, isEntryName name) {name : Name}
    (h : name ∈ lexical dir comps) : isEntryName name :=
  (mem_lexical h).elim (hdir name) And.right

theorem isEntryName_of_get {tree : FileTree} {loc : Loc} (h : tree.get loc ≠ none) :
    ∀ name ∈ loc, isEntryName name :=
  fun _ hname ↦ isEntryName_of_proper (FileTree.properName_of_mem h hname)

@[simp] theorem endsOpen_nil : endsOpen [] = false := rfl

@[simp] theorem endsOpen_concat (comps : List Name) (comp : Name) :
    endsOpen (comps ++ [comp]) = decide (¬ isEntryName comp) := by
  simp [endsOpen]

theorem endsOpen_append (first : List Name) {second : List Name} (h : second ≠ []) :
    endsOpen (first ++ second) = endsOpen second := by
  obtain ⟨upper, last, rfl⟩ := (List.eq_nil_or_concat' second).resolve_left h
  rw [← List.append_assoc, endsOpen_concat, endsOpen_concat]

theorem endsOpen_names {names : List Name} (h : ∀ name ∈ names, isEntryName name) :
    endsOpen names = false := by
  rcases List.eq_nil_or_concat' names with rfl | ⟨upper, last, rfl⟩
  · rfl
  · simpa using h last (by simp)

/-- The components of a path read as its text does. -/
theorem lexical_filter (dir : List Name) (comps : List Name) :
    lexical dir (comps.filter (· ≠ [])) = lexical dir comps := by
  induction comps generalizing dir with
  | nil => rfl
  | cons comp rest ih =>
    by_cases hnil : comp = []
    · rw [List.filter_cons_of_neg (by simp [hnil]), ih, lexical_cons,
        lexicalStep_idle (.inl hnil)]
    · rw [List.filter_cons_of_pos (by simp [hnil]), lexical_cons, lexical_cons, ih]

theorem lexical_ofBytes (dir : List Name) (text : Bytes) :
    lexical dir (Path.ofBytes text).comps = lexical dir (segments text) := by
  rw [← lexical_filter dir (segments text)]
  simp only [Path.ofBytes]
  split_ifs with h
  · rw [lexical_concat, lexicalStep_idle (.inl rfl)]
  · rfl

end Lexical

/-! ### Normal forms -/

section Normal

variable {names : List Name}

/-- `lexically_normal` goes through an absolute path as a lexical reading does, and
notes whether the last component was a name. -/
theorem normalStep_eq {normal : List Name × Bool} (h : dotdot ∉ normal.1) (comp : Name) :
    Path.normalStep true normal comp =
      (lexicalStep normal.1 comp, decide (¬ isEntryName comp)) := by
  rcases comp_cases comp with hidle | rfl | hname
  · have hopen : ¬ isEntryName comp := fun hname ↦ hname.1 hidle
    rw [Path.normalStep, if_pos hidle, lexicalStep_idle hidle, decide_eq_true hopen]
  · have hopen : ¬ isEntryName dotdot := fun hname ↦ hname.2 rfl
    rw [Path.normalStep, if_neg (by decide), if_pos rfl, lexicalStep_dotdot,
      decide_eq_true hopen]
    rcases hlast : normal.1.getLast? with _ | last
    · rw [List.getLast?_eq_none_iff.mp hlast]
      rfl
    · have hne : last ≠ dotdot := ne_of_mem_of_not_mem (List.mem_of_getLast? hlast) h
      simp only [if_neg hne]
  · rw [Path.normalStep, if_neg hname.1, if_neg hname.2, lexicalStep_name hname,
      decide_eq_false (not_not.mpr hname)]

theorem foldl_normalStep_eq {dir : List Name} (h : dotdot ∉ dir) (comps : List Name) :
    comps.foldl (Path.normalStep true) (dir, false) = (lexical dir comps, endsOpen comps) := by
  induction comps using List.reverseRecOn with
  | nil => rfl
  | append_singleton comps comp ih =>
    have hup : dotdot ∉ lexical dir comps := fun hmem ↦
      (mem_lexical hmem).elim h fun hname ↦ hname.2.2 rfl
    rw [List.foldl_append, ih, List.foldl_cons, List.foldl_nil, normalStep_eq hup,
      lexical_concat, endsOpen_concat]

theorem lexicallyNormal_absolute (comps : List Name) :
    Path.lexicallyNormal ⟨true, comps⟩ =
      ⟨true, lexical [] comps ++ closing (lexical [] comps) comps⟩ := by
  have hlast : (lexical [] comps).getLast? ≠ some dotdot := fun hlast ↦
    (mem_lexical (List.mem_of_getLast? hlast)).elim List.not_mem_nil fun hname ↦ hname.2.2 rfl
  unfold Path.lexicallyNormal closing
  simp only [foldl_normalStep_eq List.not_mem_nil comps, ne_eq, hlast, not_false_eq_true,
    and_true, true_or, if_true]
  by_cases hnil : lexical [] comps = []
  · simp [hnil]
  · by_cases hopen : endsOpen comps = true <;> simp [hnil, hopen]

/-- A path of names without its trailing separator. -/
theorem entry_comps_names (absolute : Bool) (comps : List Name)
    (h : ∀ name ∈ names, isEntryName name) :
    (⟨absolute, names ++ closing names comps⟩ : Path).entry.comps = names := by
  have hlast : names.getLast? ≠ some [] := fun hlast ↦
    isEntryName_ne_nil (h [] (List.mem_of_getLast? hlast)) rfl
  unfold Path.entry closing
  split_ifs <;> simp_all

end Normal

/-! ### What `weakly_canonical` makes of a path -/

section WeaklyCanonical

variable {fs : FileSystem}

/-- The longest beginning of a path that exists is the object at `base`, and `rest`
comes after it. -/
def ReadsAs (fs : FileSystem) (path : Path) (base : Loc) (rest : List Name) : Prop :=
  (fs.resolve true path = .found base ∧ rest = []) ∨
    (fs.statusExists path = .ok false ∧
      ∃ found, fs.existingPrefix path.absolute [] path.comps = .ok (found, rest) ∧
        fs.resolve true ⟨path.absolute, found⟩ = .found base)

/-- The normal form of the physical path of `base` and the components after it. -/
def normalFrom (base : Loc) (rest : List Name) : Path :=
  ⟨true, lexical base rest ++ closing (lexical base rest) rest⟩

theorem normalFrom_nil (base : Loc) : normalFrom base [] = ⟨true, base⟩ := by
  simp [normalFrom, closing]

theorem lexicallyNormal_append {base : Loc} (hbase : ∀ name ∈ base, isEntryName name)
    (rest : List Name) : Path.lexicallyNormal ⟨true, base ++ rest⟩ = normalFrom base rest := by
  have hlexical : lexical [] (base ++ rest) = lexical base rest := by
    rw [lexical_append, lexical_names hbase, List.nil_append]
  rw [lexicallyNormal_absolute, hlexical, normalFrom]
  by_cases hrest : rest = []
  · rw [hrest, List.append_nil, closing, closing, endsOpen_names hbase, endsOpen_nil]
  · rw [closing, closing, endsOpen_append base hrest]

theorem ReadsAs.exists_base {path : Path} {base : Loc} {rest : List Name}
    (h : ReadsAs fs path base rest) : fs.tree.get base ≠ none := by
  rcases h with ⟨hfound, -⟩ | ⟨-, found, -, hfound⟩
  · have hsound := fs.resolve_sound true path
    rwa [hfound] at hsound
  · have hsound := fs.resolve_sound true ⟨path.absolute, found⟩
    rwa [hfound] at hsound

theorem ReadsAs.weaklyCanonical {path : Path} {base : Loc} {rest : List Name}
    (h : ReadsAs fs path base rest) : fs.weaklyCanonical path = .ok (normalFrom base rest) := by
  have hnames := isEntryName_of_get h.exists_base
  rcases h with ⟨hfound, rfl⟩ | ⟨hmissing, found, hfront, hfound⟩
  · rw [FileSystem.weaklyCanonical_of_found hfound, normalFrom_nil]
  · have hstarts : ¬ (path.absolute = false ∧ found = []) := fun hnowhere ↦
      starts_of_found hfound ⟨hnowhere.1, .inl hnowhere.2⟩
    have hcanonical : fs.canonical ⟨path.absolute, found⟩ = .ok ⟨true, base⟩ :=
      FileSystem.canonical_eq_ok_iff.mpr ⟨base, hfound, rfl⟩
    rw [FileSystem.weaklyCanonical, hmissing]
    simp only [hfront, if_neg hstarts, hcanonical]
    rw [lexicallyNormal_append hnames]

/-- A result that is an absolute path was read so. -/
theorem readsAs_of_weaklyCanonical {path canon : Path} (h : fs.weaklyCanonical path = .ok canon)
    (habsolute : canon.absolute = true) : ∃ base rest, ReadsAs fs path base rest := by
  unfold FileSystem.weaklyCanonical at h
  split at h
  · exact nomatch h
  · next hexists =>
    obtain ⟨loc, hfound, -⟩ := FileSystem.canonical_eq_ok_iff.mp h
    exact ⟨loc, [], .inl ⟨hfound, rfl⟩⟩
  · next hmissing =>
    split at h
    · exact nomatch h
    · next found rest hfront =>
      split_ifs at h with hrelative
      · rw [← Except.ok.inj h] at habsolute
        unfold Path.lexicallyNormal at habsolute
        simp only at habsolute
        split_ifs at habsolute
      · split at h
        · exact nomatch h
        · next base hcanonical =>
          obtain ⟨loc, hfound, -⟩ := FileSystem.canonical_eq_ok_iff.mp hcanonical
          exact ⟨loc, rest, .inr ⟨hmissing, found, hfront, hfound⟩⟩

/-! ### Going on from a path -/

variable (fs) in
/-- The walk of a longer pathname goes on from where the walk of its beginning ends. -/
theorem resolve_continues {absolute : Bool} {upper more : List Name} (hmore : more ≠ [])
    (hne : ¬ (absolute = false ∧ upper = [])) :
    (fs.resolve true ⟨absolute, upper⟩).Continues fs.tree true maxSymlinks more
      (fs.resolve true ⟨absolute, upper ++ more⟩) := by
  by_cases hcwd : absolute = false ∧ fs.tree.isDir fs.cwd = false
  · rw [FileSystem.resolve, if_pos ⟨hcwd.1, .inr hcwd.2⟩, FileSystem.resolve,
      if_pos ⟨hcwd.1, .inr hcwd.2⟩]
    rfl
  · have hstarts : ¬ (absolute = false ∧ (upper = [] ∨ fs.tree.isDir fs.cwd = false)) :=
      fun hnowhere ↦ hnowhere.2.elim (fun hnil ↦ hne ⟨hnowhere.1, hnil⟩)
        fun hgone ↦ hcwd ⟨hnowhere.1, hgone⟩
    have hstarts' : ¬ (absolute = false ∧ (upper ++ more = [] ∨ fs.tree.isDir fs.cwd = false)) :=
      fun hnowhere ↦ hnowhere.2.elim (fun hnil ↦ hmore (List.append_eq_nil_iff.mp hnil).2)
        fun hgone ↦ hcwd ⟨hnowhere.1, hgone⟩
    rw [FileSystem.resolve, if_neg hstarts, FileSystem.resolve, if_neg hstarts']
    exact walk_append true maxSymlinks upper hmore (isDir_start hstarts)

theorem resolve_from_dir {absolute : Bool} {upper more : List Name} {dir : Loc}
    (hupper : fs.resolve true ⟨absolute, upper⟩ = .found dir) (hdir : fs.tree.isDir dir = true)
    (hmore : more ≠ []) : ∃ left, fs.resolve true ⟨absolute, upper ++ more⟩ =
      walk fs.tree true left dir more := by
  have hne : ¬ (absolute = false ∧ upper = []) := fun hnowhere ↦
    starts_of_found hupper ⟨hnowhere.1, .inl hnowhere.2⟩
  have hcontinues := resolve_continues fs hmore hne
  rw [hupper, Walk.Continues, if_pos hdir] at hcontinues
  obtain ⟨left, -, hwalk⟩ := hcontinues
  exact ⟨left, hwalk⟩

/-- A path without its trailing separator leads where the path leads. -/
theorem resolve_entry {path : Path} {loc : Loc} (hpath : path.comps ≠ [[]])
    (h : fs.resolve true path = .found loc) :
    fs.resolve true ⟨path.absolute, path.entry.comps⟩ = .found loc := by
  rcases entry_comps_cases path with hcomps | hcomps
  · rw [← hcomps]
    exact h
  · have hne : path.entry.comps ≠ [] := fun hnil ↦ hpath (by rw [hcomps, hnil, List.nil_append])
    have hfound : fs.resolve true ⟨path.absolute, path.entry.comps ++ [[]]⟩ = .found loc := by
      rw [← hcomps]
      exact h
    obtain ⟨upper, hupper⟩ := found_of_append hne hfound
    have hnamed : ¬ (path.absolute = false ∧ path.entry.comps = []) := fun h ↦ hne h.2
    have hcontinues := resolve_continues fs (List.cons_ne_nil [] []) hnamed
    rw [hupper, hfound, Walk.Continues] at hcontinues
    split_ifs at hcontinues
    obtain ⟨left, -, hwalk⟩ := hcontinues
    rw [walk_idle (.inl rfl), walk_nil] at hwalk
    rw [hupper, ← hwalk]

/-- A trailing separator makes no difference to a path that leads to a directory. -/
theorem resolve_of_entry {path : Path} {dir : Loc}
    (h : fs.resolve true ⟨path.absolute, path.entry.comps⟩ = .found dir)
    (hdir : fs.tree.isDir dir = true) : fs.resolve true path = .found dir := by
  rcases entry_comps_cases path with hcomps | hcomps
  · rw [← hcomps] at h
    exact h
  · obtain ⟨left, hwalk⟩ := resolve_from_dir h hdir (List.cons_ne_nil [] [])
    rw [← hcomps, walk_idle (.inl rfl), walk_nil] at hwalk
    exact hwalk

/-- Below a file nothing exists. -/
theorem statusExists_below_file {absolute : Bool} {upper more : List Name} {loc : Loc}
    (hupper : fs.resolve true ⟨absolute, upper⟩ = .found loc) (hfile : fs.tree.isDir loc = false)
    (hmore : more ≠ []) : fs.statusExists ⟨absolute, upper ++ more⟩ = .ok false := by
  have hne : ¬ (absolute = false ∧ upper = []) := fun hnowhere ↦
    starts_of_found hupper ⟨hnowhere.1, .inl hnowhere.2⟩
  have hcontinues := resolve_continues fs hmore hne
  rw [hupper, Walk.Continues, hfile, if_neg Bool.false_ne_true] at hcontinues
  rw [FileSystem.statusExists, hcontinues]
  rfl

/-- What does not exist has nothing below it. -/
theorem statusExists_append {absolute : Bool} {upper : List Name} (more : List Name)
    (hne : ¬ (absolute = false ∧ upper = []))
    (h : fs.statusExists ⟨absolute, upper⟩ = .ok false) :
    fs.statusExists ⟨absolute, upper ++ more⟩ = .ok false := by
  by_cases hmore : more = []
  · rwa [hmore, List.append_nil]
  · have hcontinues := resolve_continues fs hmore hne
    unfold FileSystem.statusExists at h
    split at h
    · exact nomatch h
    · next dir name rest hmissing =>
      rw [hmissing, Walk.Continues] at hcontinues
      rw [FileSystem.statusExists, hcontinues]
    · next error hfailed =>
      rw [hfailed, Walk.Continues] at hcontinues
      rw [FileSystem.statusExists, hcontinues]
      exact h

theorem existingPrefix_extend {absolute : Bool} {found upper first rest : List Name}
    (more : List Name) (h : fs.existingPrefix absolute found upper = .ok (first, rest))
    (hrest : rest ≠ []) :
    fs.existingPrefix absolute found (upper ++ more) = .ok (first, rest ++ more) := by
  induction upper generalizing found with
  | nil =>
    rw [FileSystem.existingPrefix] at h
    exact absurd (Prod.mk.inj (Except.ok.inj h)).2.symm hrest
  | cons comp upper ih =>
    rw [FileSystem.existingPrefix] at h
    rw [List.cons_append, FileSystem.existingPrefix]
    split at h
    · cases h
    · exact ih h
    · obtain ⟨rfl, rfl⟩ := Prod.mk.inj (Except.ok.inj h)
      rfl

/-- Where the beginning that exists ends. -/
theorem existingPrefix_splits {absolute : Bool} {found comps first rest : List Name}
    (h : fs.existingPrefix absolute found comps = .ok (first, rest)) :
    ∃ more, comps = more ++ rest ∧ first = found ++ more ∧
      (more ≠ [] → fs.statusExists ⟨absolute, first⟩ = .ok true) := by
  induction comps generalizing found with
  | nil =>
    rw [FileSystem.existingPrefix] at h
    obtain ⟨rfl, rfl⟩ := Prod.mk.inj (Except.ok.inj h)
    exact ⟨[], rfl, (List.append_nil _).symm, fun hne ↦ absurd rfl hne⟩
  | cons comp comps ih =>
    rw [FileSystem.existingPrefix] at h
    split at h
    · cases h
    · next hexists =>
      obtain ⟨more, hcomps, hfirst, hstatus⟩ := ih h
      refine ⟨comp :: more, by rw [hcomps, List.cons_append], ?_, fun _ ↦ ?_⟩
      · rw [hfirst, List.append_assoc, List.singleton_append]
      · by_cases hmore : more = []
        · rw [hfirst, hmore, List.append_nil]
          exact hexists
        · exact hstatus hmore
    · obtain ⟨rfl, rfl⟩ := Prod.mk.inj (Except.ok.inj h)
      exact ⟨[], rfl, (List.append_nil _).symm, fun hne ↦ absurd rfl hne⟩

theorem ReadsAs.rest_subset {path : Path} {base : Loc} {rest : List Name}
    (h : ReadsAs fs path base rest) : ∀ comp ∈ rest, comp ∈ path.comps := by
  rcases h with ⟨-, rfl⟩ | ⟨-, found, hfront, -⟩
  · exact fun _ h ↦ absurd h List.not_mem_nil
  · obtain ⟨more, hcomps, -⟩ := existingPrefix_splits hfront
    exact fun comp hcomp ↦ hcomps ▸ List.mem_append_right more hcomp

/-- More components after a path that leads to no directory come after its `rest`. -/
theorem ReadsAs.extend {absolute : Bool} {upper rest : List Name} {base : Loc}
    (h : ReadsAs fs ⟨absolute, upper⟩ base rest)
    (hdir : ∀ loc, fs.resolve true ⟨absolute, upper⟩ = .found loc → fs.tree.isDir loc = false)
    {more : List Name} (hmore : more ≠ []) :
    ReadsAs fs ⟨absolute, upper ++ more⟩ base (rest ++ more) := by
  rcases h with ⟨hfound, rfl⟩ | ⟨hmissing, first, hfront, hfound⟩
  · have hfile := hdir base hfound
    refine .inr ⟨statusExists_below_file hfound hfile hmore, upper, ?_, hfound⟩
    obtain ⟨comp, others, rfl⟩ := List.exists_cons_of_ne_nil hmore
    have hsplit := existingPrefix_append [] upper (comp :: others) hfound
    have hnext : fs.statusExists ⟨absolute, upper ++ [comp]⟩ = .ok false :=
      statusExists_below_file hfound hfile (List.cons_ne_nil comp [])
    rw [hsplit, List.nil_append, FileSystem.existingPrefix, hnext]
    rfl
  · have hrest : rest ≠ [] := by
      rintro rfl
      obtain ⟨more', hcomps, hfirst, -⟩ := existingPrefix_splits hfront
      have hsame : first = upper := by
        rw [hfirst, List.nil_append, ← List.append_nil more', ← hcomps]
      rw [hsame] at hfound
      rw [statusExists_of_found hfound] at hmissing
      cases hmissing
    have hne : ¬ (absolute = false ∧ upper = []) := by
      rintro ⟨-, rfl⟩
      rw [FileSystem.existingPrefix] at hfront
      exact hrest (Prod.mk.inj (Except.ok.inj hfront)).2.symm
    exact .inr ⟨statusExists_append more hne hmissing, first,
      existingPrefix_extend more hfront hrest, hfound⟩

theorem existingPrefix_append_cases {absolute : Bool} {found upper more first rest : List Name}
    (h : fs.existingPrefix absolute found (upper ++ more) = .ok (first, rest)) :
    (∃ left, left ≠ [] ∧ rest = left ++ more ∧
        fs.existingPrefix absolute found upper = .ok (first, left)) ∨
      fs.existingPrefix absolute found upper = .ok (found ++ upper, []) := by
  induction upper generalizing found with
  | nil => exact .inr (by rw [FileSystem.existingPrefix, List.append_nil])
  | cons comp upper ih =>
    rw [List.cons_append, FileSystem.existingPrefix] at h
    rw [FileSystem.existingPrefix]
    split at h
    · cases h
    · have hrest := ih h
      rwa [List.append_assoc, List.singleton_append] at hrest
    · obtain ⟨rfl, rfl⟩ := Prod.mk.inj (Except.ok.inj h)
      exact .inl ⟨comp :: upper, List.cons_ne_nil comp upper, rfl, rfl⟩

/-- A path below one that leads to no directory is read as that one with the components
after it. -/
theorem ReadsAs.of_append {absolute : Bool} {upper more rest : List Name} {base : Loc}
    (h : ReadsAs fs ⟨absolute, upper ++ more⟩ base rest) (hmore : more ≠ [])
    (hne : ¬ (absolute = false ∧ upper = []))
    (hdir : ∀ loc, fs.resolve true ⟨absolute, upper⟩ = .found loc → fs.tree.isDir loc = false) :
    ∃ left, rest = left ++ more ∧ ReadsAs fs ⟨absolute, upper⟩ base left := by
  have hcontinues := resolve_continues fs hmore hne
  rcases h with ⟨hfound, -⟩ | ⟨hmissing, first, hfront, hbase⟩
  · exfalso
    rw [hfound] at hcontinues
    rcases hupper : fs.resolve true ⟨absolute, upper⟩ with loc | ⟨dir, name, others⟩ | error
    · rw [hupper, Walk.Continues, hdir loc hupper] at hcontinues
      cases hcontinues
    · rw [hupper] at hcontinues
      cases hcontinues
    · rw [hupper] at hcontinues
      cases hcontinues
  · by_cases hexists : fs.statusExists ⟨absolute, upper⟩ = .ok true
    · obtain ⟨loc, hfound⟩ := found_of_statusExists hexists
      obtain ⟨comp, others, rfl⟩ := List.exists_cons_of_ne_nil hmore
      have hnext : fs.statusExists ⟨absolute, upper ++ [comp]⟩ = .ok false :=
        statusExists_below_file hfound (hdir loc hfound) (List.cons_ne_nil comp [])
      have hsplit := existingPrefix_append [] upper (comp :: others) hfound
      rw [List.nil_append, FileSystem.existingPrefix, hnext] at hsplit
      obtain ⟨rfl, rfl⟩ := Prod.mk.inj (Except.ok.inj (hfront.symm.trans hsplit))
      exact ⟨[], rfl, .inl ⟨hbase, rfl⟩⟩
    · have hupper : fs.statusExists ⟨absolute, upper⟩ = .ok false := by
        rw [FileSystem.statusExists] at hmissing hexists ⊢
        rcases hwalk : fs.resolve true ⟨absolute, upper⟩ with loc | ⟨dir, name, others⟩ | error
        · rw [hwalk] at hexists
          exact absurd rfl hexists
        · rfl
        · rw [hwalk, Walk.Continues] at hcontinues
          rwa [hcontinues] at hmissing
      rcases existingPrefix_append_cases hfront with ⟨left, -, hrest, hleft⟩ | hwhole
      · exact ⟨left, hrest, .inr ⟨hupper, first, hleft, hbase⟩⟩
      · obtain ⟨others, -, hfirst, hstatus⟩ := existingPrefix_splits hwhole
        by_cases hnil : others = []
        · have hupperNil : upper = [] := by simpa [hnil] using hfirst
          have habsolute : absolute = true := by simpa [hupperNil] using hne
          rw [hupperNil, habsolute, FileSystem.statusExists, FileSystem.resolve_absolute,
            walk_nil] at hexists
          exact absurd rfl hexists
        · exact absurd (hstatus hnil) hexists

/-- The beginning that exists is found if no call fails for another reason than that
nothing is there. -/
theorem existingPrefix_isOk {absolute : Bool} {found comps : List Name}
    (h : ∀ error, fs.resolve true ⟨absolute, found ++ comps⟩ = .failed error →
      FileSystem.isNotFound error = true) :
    ∃ parts, fs.existingPrefix absolute found comps = .ok parts := by
  induction comps generalizing found with
  | nil => exact ⟨(found, []), rfl⟩
  | cons comp rest ih =>
    rw [FileSystem.existingPrefix]
    rw [List.append_cons] at h
    rcases hnext : fs.resolve true ⟨absolute, found ++ [comp]⟩ with loc | ⟨dir, name, more⟩ | error
    · rw [statusExists_of_found hnext]
      exact ih h
    · rw [FileSystem.statusExists, hnext]
      exact ⟨_, rfl⟩
    · have hnotFound : FileSystem.isNotFound error = true := by
        by_cases hrest : rest = []
        · rw [hrest, List.append_nil] at h
          exact h error hnext
        · have hnamed : ¬ (absolute = false ∧ found ++ [comp] = []) :=
            fun hnowhere ↦ List.append_ne_nil_of_right_ne_nil found (by simp) hnowhere.2
          have hcontinues := resolve_continues fs hrest hnamed
          rw [hnext] at hcontinues
          exact h error hcontinues
      rw [FileSystem.statusExists, hnext]
      dsimp only
      rw [if_pos hnotFound]
      exact ⟨_, rfl⟩

/-- `weakly_canonical` succeeds unless the walk fails for another reason than that
nothing is there. -/
theorem weaklyCanonical_isOk_iff {path : Path} : (∃ canon, fs.weaklyCanonical path = .ok canon) ↔
    ∀ error, fs.resolve true path = .failed error → FileSystem.isNotFound error = true := by
  constructor
  · rintro ⟨canon, hcanon⟩ error hfailed
    by_contra hnotFound
    rw [FileSystem.weaklyCanonical, FileSystem.statusExists, hfailed] at hcanon
    dsimp only at hcanon
    rw [if_neg hnotFound] at hcanon
    cases hcanon
  · intro h
    by_cases hexists : ∃ loc, fs.resolve true path = .found loc
    · obtain ⟨loc, hfound⟩ := hexists
      exact ⟨_, FileSystem.weaklyCanonical_of_found hfound⟩
    · have hmissing : fs.statusExists path = .ok false := by
        rcases hwalk : fs.resolve true path with loc | ⟨dir, name, more⟩ | error
        · exact absurd ⟨loc, hwalk⟩ hexists
        · rw [FileSystem.statusExists, hwalk]
        · rw [FileSystem.statusExists, hwalk]
          exact if_pos (h error hwalk)
      obtain ⟨⟨found, rest⟩, hfront⟩ : ∃ parts,
          fs.existingPrefix path.absolute [] path.comps = .ok parts := existingPrefix_isOk h
      obtain ⟨more, -, hfirst, hstatus⟩ := existingPrefix_splits hfront
      rw [List.nil_append] at hfirst
      rw [FileSystem.weaklyCanonical, hmissing]
      simp only [hfront]
      split_ifs with hrelative
      · exact ⟨_, rfl⟩
      · have hbase : ∃ loc, fs.resolve true ⟨path.absolute, found⟩ = .found loc := by
          by_cases hnil : more = []
          · have habsolute : path.absolute = true := by simpa [hfirst, hnil] using hrelative
            rw [hfirst, hnil, habsolute, FileSystem.resolve_absolute, walk_nil]
            exact ⟨[], rfl⟩
          · exact found_of_statusExists (hstatus hnil)
        obtain ⟨loc, hfound⟩ := hbase
        rw [FileSystem.canonical_eq_ok_iff.mpr ⟨loc, hfound, rfl⟩]
        exact ⟨_, rfl⟩

/-! ### Paths that meet no link -/

theorem normalFrom_names (base : Loc) (names : List Name) {sep : List Name}
    (hnames : ∀ name ∈ names, isEntryName name) (hne : base ++ names ≠ [])
    (hsep : sep = [] ∨ sep = [[]]) :
    normalFrom base (names ++ sep) = ⟨true, base ++ names ++ sep⟩ := by
  have hlexical : lexical base (names ++ sep) = base ++ names := by
    rw [lexical_append, lexical_names hnames]
    rcases hsep with rfl | rfl
    · rfl
    · exact lexicalStep_idle (.inl rfl)
  rw [normalFrom, hlexical, closing]
  rcases hsep with rfl | rfl
  · rw [List.append_nil, endsOpen_names hnames, if_neg (fun h ↦ Bool.false_ne_true h.1)]
  · have hopen : endsOpen (names ++ [[]]) = true := by
      rw [endsOpen_concat]
      exact decide_eq_true fun h ↦ isEntryName_ne_nil h rfl
    rw [if_pos ⟨hopen, hne⟩]

/-- Where the walk stops at something that is no directory, `weakly_canonical` appends
the names behind it as they are. -/
theorem weaklyCanonical_of_stop {absolute : Bool} {comps base first rest sep : List Name}
    (hreads : ReadsAs fs ⟨absolute, comps⟩ base first)
    (hfile : ∀ loc, fs.resolve true ⟨absolute, comps⟩ = .found loc → fs.tree.isDir loc = false)
    (hnames : ∀ name ∈ first ++ rest, isEntryName name) (hne : base ++ (first ++ rest) ≠ [])
    (hsep : sep = [] ∨ sep = [[]]) :
    fs.weaklyCanonical ⟨absolute, comps ++ (rest ++ sep)⟩ =
      .ok ⟨true, base ++ (first ++ rest) ++ sep⟩ := by
  have hall : ReadsAs fs ⟨absolute, comps ++ (rest ++ sep)⟩ base (first ++ (rest ++ sep)) := by
    by_cases hmore : rest ++ sep = []
    · rwa [hmore, List.append_nil, List.append_nil]
    · exact hreads.extend hfile hmore
  rw [hall.weaklyCanonical, ← List.append_assoc first, normalFrom_names base _ hnames hne hsep]

/-- Nothing below a name that is not a directory is one. -/
theorem sep_of_not_isDir {dir : Loc} {name : Name} (rest sep : List Name)
    (hnotDir : fs.tree.isDir (dir ++ [name]) = false) :
    (dir ++ name :: rest ++ if fs.tree.isDir (dir ++ name :: rest) then [] else sep) =
      dir ++ name :: rest ++ sep := by
  rw [List.append_cons, FileTree.isDir_append_of_not hnotDir rest, if_neg Bool.false_ne_true]

section Below

variable {absolute : Bool} {upper rest sep : List Name} {dir : Loc} {name : Name}
  (hupper : fs.resolve true ⟨absolute, upper⟩ = .found dir) (hdir : fs.tree.isDir dir = true)
  (hnames : ∀ other ∈ name :: rest, isEntryName other) (hsep : sep = [] ∨ sep = [[]])

include hupper hdir hnames hsep

/-- The first of the names is not there. -/
theorem weaklyCanonical_below_free (hget : fs.tree.get (dir ++ [name]) = none) :
    fs.weaklyCanonical ⟨absolute, upper ++ [name] ++ (rest ++ sep)⟩ =
      .ok ⟨true, dir ++ name :: rest ++
        if fs.tree.isDir (dir ++ name :: rest) then [] else sep⟩ := by
  have hmissing := statusExists_of_free (hnames name List.mem_cons_self) hupper hdir hget
  have hreads : ReadsAs fs ⟨absolute, upper ++ [name]⟩ dir [name] := by
    refine .inr ⟨hmissing, upper, ?_, hupper⟩
    rw [existingPrefix_append [] upper [name] hupper, List.nil_append,
      FileSystem.existingPrefix, hmissing]
  have hnotDir : fs.tree.isDir (dir ++ [name]) = false := by
    rw [FileTree.isDir, hget]
    rfl
  rw [sep_of_not_isDir rest sep hnotDir]
  refine weaklyCanonical_of_stop hreads (fun loc hfound ↦ ?_) hnames
    (List.append_ne_nil_of_right_ne_nil dir (List.cons_ne_nil name rest)) hsep
  rw [statusExists_of_found hfound] at hmissing
  cases hmissing

/-- The first of the names is a file. -/
theorem weaklyCanonical_below_file {ino : ℕ}
    (hget : fs.tree.get (dir ++ [name]) = some (.file ino)) :
    fs.weaklyCanonical ⟨absolute, upper ++ [name] ++ (rest ++ sep)⟩ =
      .ok ⟨true, dir ++ name :: rest ++
        if fs.tree.isDir (dir ++ name :: rest) then [] else sep⟩ := by
  have hrest : ∀ other ∈ rest, isEntryName other :=
    fun other hother ↦ hnames other (List.mem_cons_of_mem _ hother)
  obtain ⟨left, hwalk⟩ := resolve_from_dir hupper hdir (List.cons_ne_nil name [])
  have hfound : fs.resolve true ⟨absolute, upper ++ [name]⟩ = .found (dir ++ [name]) := by
    rw [hwalk, walk_file (hnames name List.mem_cons_self) hget, if_pos rfl]
  have hnotDir : fs.tree.isDir (dir ++ [name]) = false := by
    rw [FileTree.isDir, hget]
    rfl
  rw [sep_of_not_isDir rest sep hnotDir, List.append_cons dir]
  refine weaklyCanonical_of_stop (.inl ⟨hfound, rfl⟩) (fun loc hloc ↦ ?_) hrest ?_ hsep
  · rw [← Walk.found.inj (hfound.symm.trans hloc)]
    exact hnotDir
  · rw [List.nil_append, ← List.append_cons]
    exact List.append_ne_nil_of_right_ne_nil dir (List.cons_ne_nil name rest)

end Below

/-- Names below a directory, none of which is a link, lead `weakly_canonical` to
themselves; a separator after them is dropped if a directory is there. -/
theorem weaklyCanonical_below {absolute : Bool} {upper names sep : List Name} {dir : Loc}
    (hupper : fs.resolve true ⟨absolute, upper⟩ = .found dir) (hdir : fs.tree.isDir dir = true)
    (hnames : ∀ name ∈ names, isEntryName name)
    (hlinks : ∀ below, below <+: names → ∀ target attr,
      fs.tree.get (dir ++ below) ≠ some (.symlink target attr))
    (hsep : sep = [] ∨ sep = [[]]) :
    fs.weaklyCanonical ⟨absolute, upper ++ (names ++ sep)⟩ =
      .ok ⟨true, dir ++ names ++ if fs.tree.isDir (dir ++ names) then [] else sep⟩ := by
  induction names generalizing upper dir with
  | nil =>
    rw [List.append_nil, hdir, if_pos rfl, List.append_nil, List.nil_append]
    refine FileSystem.weaklyCanonical_of_found ?_
    rcases hsep with rfl | rfl
    · rwa [List.append_nil]
    · obtain ⟨left, hwalk⟩ := resolve_from_dir hupper hdir (List.cons_ne_nil [] [])
      rw [hwalk, walk_idle (.inl rfl), walk_nil]
  | cons name rest ih =>
    rw [← List.singleton_append, List.append_assoc [name], ← List.append_assoc upper,
      List.singleton_append]
    rcases hget : fs.tree.get (dir ++ [name]) with _ | (ino | ino | ⟨target, attr⟩)
    · exact weaklyCanonical_below_free hupper hdir hnames hsep hget
    · obtain ⟨left, hwalk⟩ := resolve_from_dir hupper hdir (List.cons_ne_nil name [])
      have hfound : fs.resolve true ⟨absolute, upper ++ [name]⟩ = .found (dir ++ [name]) := by
        rw [hwalk, walk_dir (hnames name List.mem_cons_self) hget, walk_nil]
      have hchild : fs.tree.isDir (dir ++ [name]) = true := FileTree.isDir_iff.mpr ⟨ino, hget⟩
      have hrest : ∀ other ∈ rest, isEntryName other :=
        fun other hother ↦ hnames other (List.mem_cons_of_mem _ hother)
      rw [List.append_cons dir]
      refine ih hfound hchild hrest fun below hunder target attr ↦ ?_
      rw [List.append_assoc]
      exact hlinks (name :: below) (List.cons_prefix_cons.mpr ⟨rfl, hunder⟩) target attr
    · exact weaklyCanonical_below_file hupper hdir hnames hsep hget
    · exact absurd hget (hlinks [name] (by simp) target attr)

/-- Where a reading ends that was read on from `base`: each name beyond `base` was
read at some point, and no later `..` took it back. -/
theorem exists_step_of_prefix {base comps upper : List Name} (h : upper <+: lexical base comps)
    (hnew : ¬ upper <+: base) :
    ∃ before name after, comps = before ++ name :: after ∧ isEntryName name ∧
      upper = lexical base before ++ [name] ∧
        ∀ part, part <+: after → upper <+: lexical upper part := by
  induction comps using List.reverseRecOn with
  | nil => exact absurd h hnew
  | append_singleton comps comp ih =>
    -- the names before `comp` go on to be there if they still are afterwards
    have hextend : upper <+: lexical base comps → ∃ before name after,
        comps ++ [comp] = before ++ name :: after ∧ isEntryName name ∧
          upper = lexical base before ++ [name] ∧
            ∀ part, part <+: after → upper <+: lexical upper part := by
      intro hunder
      obtain ⟨before, name, after, rfl, hname, hupper, hkept⟩ := ih hunder
      refine ⟨before, name, after ++ [comp], by simp, hname, hupper, fun part hpart ↦ ?_⟩
      rcases List.prefix_concat_iff.mp hpart with rfl | hpart
      · have hread : lexical upper (after ++ [comp]) =
            lexical base (before ++ name :: after ++ [comp]) := by
          rw [lexical_concat, lexical_concat, lexical_append, lexical_cons,
            lexicalStep_name hname, ← hupper]
        rwa [hread]
      · exact hkept part hpart
    have hwhole := h
    rw [lexical_concat] at h
    rcases comp_cases comp with hidle | rfl | hname
    · rw [lexicalStep_idle hidle] at h
      exact hextend h
    · rw [lexicalStep_dotdot] at h
      exact hextend (h.trans (List.dropLast_prefix _))
    · rw [lexicalStep_name hname] at h
      rcases List.prefix_concat_iff.mp h with heq | hunder
      · refine ⟨comps, comp, [], rfl, hname, heq, fun part hpart ↦ ?_⟩
        rw [List.prefix_nil.mp hpart]
        exact List.prefix_refl _
      · exact hextend hunder

/-- One of the components names a symbolic link, if they are read lexically from `base`
on, and no later `..` takes the name back. -/
def KeepsLink (fs : FileSystem) (base : Loc) (rest : List Name) : Prop :=
  ∃ before name after target attr, rest = before ++ name :: after ∧ isEntryName name ∧
    fs.tree.get (lexical base before ++ [name]) = some (.symlink target attr) ∧
      ∀ part, part <+: after →
        lexical base before ++ [name] <+: lexical (lexical base before ++ [name]) part

theorem ReadsAs.keepsLink_iff {path : Path} {base : Loc} {rest : List Name}
    (h : ReadsAs fs path base rest) : KeepsLink fs base rest ↔
      ∃ upper target attr, upper <+: lexical base rest ∧
        fs.tree.get upper = some (.symlink target attr) := by
  have hbase : ∀ target attr, fs.tree.get base ≠ some (.symlink target attr) := by
    rcases h with ⟨hfound, -⟩ | ⟨-, found, -, hfound⟩
    · exact not_link_of_found hfound
    · exact not_link_of_found hfound
  constructor
  · rintro ⟨before, name, after, target, attr, rfl, hname, hget, hkept⟩
    refine ⟨lexical base before ++ [name], target, attr, ?_, hget⟩
    have hread : lexical base (before ++ name :: after) =
        lexical (lexical base before ++ [name]) after := by
      rw [lexical_append, lexical_cons, lexicalStep_name hname]
    rw [hread]
    exact hkept after (List.prefix_refl after)
  · rintro ⟨upper, target, attr, hunder, hget⟩
    have hnew : ¬ upper <+: base := by
      intro hold
      by_cases hsame : upper = base
      · exact hbase target attr (hsame ▸ hget)
      · obtain ⟨ino, hdir⟩ :=
          FileTree.isDir_iff.mp (FileTree.isDir_of_upper h.exists_base hold hsame)
        rw [hget] at hdir
        exact nomatch hdir
    obtain ⟨before, name, after, hrest, hname, rfl, hkept⟩ := exists_step_of_prefix hunder hnew
    exact ⟨before, name, after, target, attr, hrest, hname, hget, hkept⟩

/-- `lstat` reports a symbolic link. -/
def IsLink (fs : FileSystem) (path : Path) : Prop :=
  ∃ loc target attr, fs.resolve false path = .found loc ∧
    fs.tree.get loc = some (.symlink target attr)

/-- Names of which none is a link lead the kernel to themselves. -/
theorem walk_names_found {tree : FileTree} {follow : Bool} {links : ℕ} {cur loc : Loc}
    {names sep : List Name} (hnames : ∀ name ∈ names, isEntryName name)
    (hlinks : ∀ below, below <+: names → ∀ target attr,
      tree.get (cur ++ below) ≠ some (.symlink target attr))
    (hsep : sep = [] ∨ sep = [[]])
    (h : walk tree follow links cur (names ++ sep) = .found loc) : loc = cur ++ names := by
  induction names generalizing cur with
  | nil =>
    rw [List.append_nil]
    rcases hsep with rfl | rfl
    · rw [List.append_nil, walk_nil] at h
      exact (Walk.found.inj h).symm
    · rw [List.nil_append, walk_idle (.inl rfl), walk_nil] at h
      exact (Walk.found.inj h).symm
  | cons name rest ih =>
    have hname := hnames name List.mem_cons_self
    rw [List.cons_append] at h
    rcases hget : tree.get (cur ++ [name]) with _ | (ino | ino | ⟨target, attr⟩)
    · rw [walk_absent hname hget] at h
      exact nomatch h
    · rw [walk_dir hname hget] at h
      have hrest : ∀ below, below <+: rest → ∀ target attr,
          tree.get (cur ++ [name] ++ below) ≠ some (.symlink target attr) := by
        intro below hunder target attr
        rw [List.append_assoc]
        exact hlinks (name :: below) (List.cons_prefix_cons.mpr ⟨rfl, hunder⟩) target attr
      have hloc := ih (fun other hother ↦ hnames other (List.mem_cons_of_mem _ hother)) hrest h
      rwa [List.append_assoc, List.singleton_append] at hloc
    · rw [walk_file hname hget] at h
      split_ifs at h with hnil
      rw [(List.append_eq_nil_iff.mp hnil).1]
      exact (Walk.found.inj h).symm
    · exact absurd hget (hlinks [name] (by simp) target attr)

/-- A path of names meets a link exactly if one of its beginnings is the place of one. -/
theorem isLink_iff {names : List Name} (hnames : ∀ name ∈ names, isEntryName name) :
    (∃ upper, upper <+: names ∧ IsLink fs ⟨true, upper⟩) ↔
      ∃ upper target attr, upper <+: names ∧ fs.tree.get upper = some (.symlink target attr) := by
  constructor
  · rintro ⟨upper, hunder, loc, target, attr, hfound, hget⟩
    by_contra hnone
    rw [FileSystem.resolve_absolute, ← List.append_nil upper] at hfound
    have hloc := walk_names_found (fun name hname ↦ hnames name (hunder.subset hname))
      (fun below hbelow target attr hlink ↦
        hnone ⟨below, target, attr, hbelow.trans hunder, by simpa using hlink⟩) (.inl rfl) hfound
    rw [hloc, List.nil_append] at hget
    exact hnone ⟨upper, target, attr, hunder, hget⟩
  · rintro ⟨upper, target, attr, hunder, hget⟩
    refine ⟨upper, hunder, upper, target, attr, ?_, hget⟩
    rcases List.eq_nil_or_concat' upper with rfl | ⟨dir, name, rfl⟩
    · obtain ⟨ino, hroot⟩ := FileTree.isDir_iff.mp fs.tree.isDir_nil
      rw [hroot] at hget
      exact nomatch hget
    · exact resolve_physical_entry (hnames name (hunder.subset (by simp))) (by rw [hget]; simp)

/-! ### File systems without links -/

/-- How a walk ends that meets no link. -/
def Walk.ReadsLexically (dir comps : List Name) : Walk → Prop
  | .found loc => loc = lexical dir comps
  | .missing _ _ _ => True
  | .failed error => error = .enotdir

theorem walk_readsLexically {tree : FileTree}
    (hlinks : ∀ loc target attr, tree.get loc ≠ some (.symlink target attr)) (links : ℕ)
    (cur : Loc) (comps : List Name) :
    (walk tree true links cur comps).ReadsLexically cur comps := by
  induction links, cur, comps using walk_induction tree true with
  | nil links cur =>
    rw [walk_nil]
    rfl
  | idle links cur comp rest hidle ih =>
    rw [walk_idle hidle, Walk.ReadsLexically.eq_def, lexical_cons, lexicalStep_idle hidle]
    exact ih
  | up links cur rest ih =>
    rw [walk_dotdot, Walk.ReadsLexically.eq_def, lexical_cons, lexicalStep_dotdot]
    exact ih
  | absent links cur comp rest hentry hget =>
    rw [walk_absent hentry hget]
    trivial
  | dir links cur comp rest ino hentry hget ih =>
    rw [walk_dir hentry hget, Walk.ReadsLexically.eq_def, lexical_cons, lexicalStep_name hentry]
    exact ih
  | file links cur comp rest ino hentry hget =>
    rw [walk_file hentry hget]
    split_ifs with hrest
    · rw [hrest, Walk.ReadsLexically, lexical_cons, lexicalStep_name hentry, lexical_nil]
    · rfl
  | kept links cur comp target attr hentry hget => exact absurd hget (hlinks _ target attr)
  | exhausted cur comp rest target attr hentry hget => exact absurd hget (hlinks _ target attr)
  | link links cur comp rest target attr hentry hget => exact absurd hget (hlinks _ target attr)

theorem resolve_readsLexically
    (hlinks : ∀ loc target attr, fs.tree.get loc ≠ some (.symlink target attr)) {path : Path}
    {loc : Loc} (h : fs.resolve true path = .found loc) :
    loc = lexical (if path.absolute then [] else fs.cwd) path.comps := by
  have hstarts := starts_of_found h
  have hreads := walk_readsLexically hlinks maxSymlinks
    (if path.absolute then [] else fs.cwd) path.comps
  rw [FileSystem.resolve, if_neg hstarts] at h
  rwa [h] at hreads

/-- Without links no call fails for another reason than that nothing is there. -/
theorem statusExists_total
    (hlinks : ∀ loc target attr, fs.tree.get loc ≠ some (.symlink target attr)) (path : Path) :
    ∃ found, fs.statusExists path = .ok found := by
  by_cases hnowhere : path.absolute = false ∧ (path.comps = [] ∨ fs.tree.isDir fs.cwd = false)
  · refine ⟨false, ?_⟩
    rw [FileSystem.statusExists, FileSystem.resolve, if_pos hnowhere]
    rfl
  · have hreads := walk_readsLexically hlinks maxSymlinks
      (if path.absolute then [] else fs.cwd) path.comps
    rw [FileSystem.statusExists, FileSystem.resolve, if_neg hnowhere]
    rcases hwalk : walk fs.tree true maxSymlinks (if path.absolute then [] else fs.cwd)
      path.comps with loc | ⟨dir, name, rest⟩ | error
    · exact ⟨true, rfl⟩
    · exact ⟨false, rfl⟩
    · rw [hwalk, Walk.ReadsLexically] at hreads
      exact ⟨false, by rw [hreads]; rfl⟩

theorem existingPrefix_total
    (hlinks : ∀ loc target attr, fs.tree.get loc ≠ some (.symlink target attr)) (absolute : Bool)
    (found comps : List Name) : ∃ split, fs.existingPrefix absolute found comps = .ok split := by
  induction comps generalizing found with
  | nil => exact ⟨_, rfl⟩
  | cons comp comps ih =>
    rw [FileSystem.existingPrefix]
    obtain ⟨exists', hstatus⟩ := statusExists_total hlinks ⟨absolute, found ++ [comp]⟩
    rw [hstatus]
    cases exists' with
    | true => exact ih (found ++ [comp])
    | false => exact ⟨_, rfl⟩

/-- Without links, what comes after a path that exists is read lexically. -/
theorem readsAs_of_noLinks
    (hlinks : ∀ loc target attr, fs.tree.get loc ≠ some (.symlink target attr)) {absolute : Bool}
    {upper : List Name} {loc : Loc} (hupper : fs.resolve true ⟨absolute, upper⟩ = .found loc)
    (more : List Name) :
    ∃ base rest, ReadsAs fs ⟨absolute, upper ++ more⟩ base rest ∧
      lexical base rest = lexical loc more := by
  have hstart := resolve_readsLexically hlinks hupper
  obtain ⟨whole, hwhole⟩ := statusExists_total hlinks ⟨absolute, upper ++ more⟩
  cases whole with
  | true =>
    obtain ⟨base, hfound⟩ := found_of_statusExists hwhole
    refine ⟨base, [], .inl ⟨hfound, rfl⟩, ?_⟩
    have hbase := resolve_readsLexically hlinks hfound
    rw [lexical_nil, hbase, hstart, ← lexical_append]
  | false =>
    obtain ⟨⟨first, rest⟩, hfront⟩ := existingPrefix_total hlinks absolute upper more
    obtain ⟨between, hsplit, hfirst, hstatus⟩ := existingPrefix_splits hfront
    have hfound : ∃ base, fs.resolve true ⟨absolute, first⟩ = .found base := by
      by_cases hbetween : between = []
      · exact ⟨loc, by rw [hfirst, hbetween, List.append_nil]; exact hupper⟩
      · exact found_of_statusExists (hstatus hbetween)
    obtain ⟨base, hbase⟩ := hfound
    refine ⟨base, rest, .inr ⟨hwhole, first, ?_, hbase⟩, ?_⟩
    · have happend := existingPrefix_append [] upper more hupper
      rw [happend, List.nil_append]
      exact hfront
    · have hread := resolve_readsLexically hlinks hbase
      rw [hread, hstart, hsplit, ← lexical_append, ← lexical_append, hfirst]
      simp only [List.append_assoc]

end WeaklyCanonical

end LibSshpp.Posix
