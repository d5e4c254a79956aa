import LibSshpp.Posix.FileSystem
import Mathlib.Algebra.Ring.Int.Defs

/-!
The part of `std::filesystem` the library uses: joining paths, their lexical normal
form, and `weakly_canonical`, which canonicalises the longest beginning of a path
that exists and appends the other components in lexical normal form.
-/

set_option autoImplicit false
set_option relaxedAutoImplicit false

namespace LibSshpp.Posix

namespace Path

/-- The elements of a path in iteration order; `none` is the root directory. -/
def elements (path : Path) : List (Option Name) :=
  if path.absolute then none :: path.comps.map some else path.comps.map some

/-- The text of a path. -/
def text (path : Path) : Bytes :=
  (if path.absolute then [0x2f] else []) ++ List.intercalate [0x2f] path.comps

/-- `operator/`. -/
def join (path other : Path) : Path :=
  if other.absolute then other
  else if other.comps = [] then
    if path.comps = [] then path else { path with comps := path.entry.comps ++ [[]] }
  else { path with comps := path.entry.comps ++ other.comps }

/-- One element of a path in the course of `lexically_normal`: the names so far, and
whether they end in a separator. -/
def normalStep (absolute : Bool) (normal : List Name × Bool) (comp : Name) : List Name × Bool :=
  if isIdle comp then (normal.1, true)
  else if comp = dotdot then
    match normal.1.getLast? with
    | none => if absolute then ([], true) else ([dotdot], false)
    | some last =>
      if last = dotdot then (normal.1 ++ [dotdot], false) else (normal.1.dropLast, true)
  else (normal.1 ++ [comp], false)

/-- `lexically_normal`. -/
def lexicallyNormal (path : Path) : Path :=
  let normal := path.comps.foldl (normalStep path.absolute) ([], false)
  if normal.1 = [] then
    { path with comps := if path.absolute ∨ path.comps = [] then [] else [dot] }
  else if normal.2 ∧ normal.1.getLast? ≠ some dotdot then
    { path with comps := normal.1 ++ [[]] }
  else { path with comps := normal.1 }

/-- What remains of two lists after their common beginning. -/
def mismatch {α : Type} [DecidableEq α] : List α → List α → List α × List α
  | first :: firsts, second :: seconds =>
    if first = second then mismatch firsts seconds else (first :: firsts, second :: seconds)
  | firsts, seconds => (firsts, seconds)

/-- How many directories an element of the base of `lexically_relative` leads down. -/
def descent : Option Name → ℤ
  | none => 1
  | some name => if name = dotdot then -1 else if isIdle name then 0 else 1

/-- `lexically_relative`. -/
def lexicallyRelative (path base : Path) : Path :=
  if path.absolute ≠ base.absolute then ⟨false, []⟩
  else
    let parts := mismatch path.elements base.elements
    let steps := (parts.2.map descent).sum
    if parts.1 = [] ∧ parts.2 = [] then ⟨false, [dot]⟩
    else if steps = 0 ∧ (parts.1 = [] ∨ parts.1.head? = some (some [])) then ⟨false, [dot]⟩
    else if 0 ≤ steps then
      ⟨false, List.replicate steps.toNat dotdot ++ parts.1.filterMap id⟩
    else ⟨false, []⟩

end Path

namespace FileSystem

variable (fs : FileSystem)

/-- An error of `status` that stands for a file that is not there. -/
def isNotFound (error : Errno) : Bool := error = .enoent ∨ error = .enotdir

/-- `exists(status(path))`. -/
def statusExists (path : Path) : Except Errno Bool :=
  match fs.resolve true path with
  | .found _ => .ok true
  | .missing _ _ _ => .ok false
  | .failed error => if isNotFound error then .ok false else .error error

/-- `canonical`: the physical path of an object that exists. -/
def canonical (path : Path) : Except Errno Path :=
  match fs.lookup true path with
  | .ok loc => .ok ⟨true, loc⟩
  | .error error => .error error

/-- The leading elements of a path that exist, and the others. -/
def existingPrefix (absolute : Bool) (found : List Name) :
    List Name → Except Errno (List Name × List Name)
  | [] => .ok (found, [])
  | comp :: rest =>
    match fs.statusExists ⟨absolute, found ++ [comp]⟩ with
    | .error error => .error error
    | .ok true => existingPrefix absolute (found ++ [comp]) rest
    | .ok false => .ok (found, comp :: rest)

/-- `weakly_canonical`, as long as the kernel refuses none of the paths it asks for. -/
def weaklyCanonical (path : Path) : Except Errno Path :=
  match fs.statusExists path with
  | .error error => .error error
  | .ok true => fs.canonical path
  | .ok false =>
    match fs.existingPrefix path.absolute [] path.comps with
    | .error error => .error error
    | .ok (found, rest) =>
      if path.absolute = false ∧ found = [] then .ok (Path.lexicallyNormal ⟨false, rest⟩)
      else match fs.canonical ⟨path.absolute, found⟩ with
        | .error error => .error error
        | .ok base => .ok (Path.lexicallyNormal ⟨true, base.comps ++ rest⟩)

end FileSystem

/-! ### Normal forms -/

namespace Path

theorem normalStep_noClimb {normal : List Name × Bool} (h : dotdot ∉ normal.1) (comp : Name) :
    dotdot ∉ (normalStep true normal comp).1 := by
  by_cases hidle : isIdle comp
  · rw [normalStep, if_pos hidle]
    exact h
  · by_cases hup : comp = dotdot
    · rw [normalStep, if_neg hidle, if_pos hup]
      rcases hlast : normal.1.getLast? with _ | last
      · exact List.not_mem_nil
      · have hne : last ≠ dotdot := ne_of_mem_of_not_mem (List.mem_of_getLast? hlast) h
        simp only [if_neg hne]
        exact fun hdrop ↦ h (List.mem_of_mem_dropLast hdrop)
    · rw [normalStep, if_neg hidle, if_neg hup]
      show dotdot ∉ normal.1 ++ [comp]
      rw [List.mem_append, not_or, List.mem_singleton]
      exact ⟨h, Ne.symm hup⟩

theorem foldl_normalStep_noClimb (comps : List Name) {normal : List Name × Bool}
    (h : dotdot ∉ normal.1) : dotdot ∉ (comps.foldl (normalStep true) normal).1 := by
  induction comps generalizing normal with
  | nil => exact h
  | cons comp rest ih => exact ih (normalStep_noClimb h comp)

/-- A normal form from the root directory on has no `..`. -/
theorem lexicallyNormal_noClimb (comps : List Name) :
    (lexicallyNormal ⟨true, comps⟩).absolute = true ∧
      dotdot ∉ (lexicallyNormal ⟨true, comps⟩).comps := by
  have hfold : dotdot ∉ (comps.foldl (normalStep true) ([], false)).1 :=
    foldl_normalStep_noClimb comps List.not_mem_nil
  unfold lexicallyNormal
  simp only [true_or, if_true]
  split_ifs
  · exact ⟨rfl, List.not_mem_nil⟩
  · refine ⟨rfl, ?_⟩
    show dotdot ∉ _ ++ [[]]
    rw [List.mem_append, not_or]
    exact ⟨hfold, by decide⟩
  · exact ⟨rfl, hfold⟩

theorem foldl_normalStep_names {names : List Name} (h : ∀ name ∈ names, isEntryName name)
    (absolute : Bool) (normal : List Name × Bool) (hne : names ≠ []) :
    names.foldl (normalStep absolute) normal = (normal.1 ++ names, false) := by
  induction names generalizing normal with
  | nil => exact absurd rfl hne
  | cons name rest ih =>
    have hentry := h name List.mem_cons_self
    have hstep : normalStep absolute normal name = (normal.1 ++ [name], false) := by
      rw [normalStep, if_neg hentry.1, if_neg hentry.2]
    rw [List.foldl_cons, hstep]
    by_cases hrest : rest = []
    · rw [hrest, List.foldl_nil]
    · rw [ih (fun other hother ↦ h other (List.mem_cons_of_mem _ hother)) _ hrest,
        List.append_assoc, List.singleton_append]

/-- A path of names is its own normal form. -/
theorem lexicallyNormal_names {names : List Name} (h : ∀ name ∈ names, isEntryName name)
    (hne : names ≠ []) : lexicallyNormal ⟨true, names⟩ = ⟨true, names⟩ := by
  unfold lexicallyNormal
  simp only [foldl_normalStep_names h true ([], false) hne, List.nil_append, if_neg hne]
  simp

end Path

namespace FileSystem

variable {fs : FileSystem}

theorem canonical_eq_ok_iff {path canon : Path} : fs.canonical path = .ok canon ↔
    ∃ loc, fs.resolve true path = .found loc ∧ canon = ⟨true, loc⟩ := by
  unfold canonical
  constructor
  · intro h
    split at h
    · next loc hlookup => exact ⟨loc, lookup_eq_ok_iff.mp hlookup, (Except.ok.inj h).symm⟩
    · exact nomatch h
  · rintro ⟨loc, hfound, rfl⟩
    rw [lookup_eq_ok_iff.mpr hfound]

/-- The path of an object that exists is made canonical as a whole. -/
theorem weaklyCanonical_of_found {path : Path} {loc : Loc}
    (h : fs.resolve true path = .found loc) : fs.weaklyCanonical path = .ok ⟨true, loc⟩ := by
  rw [weaklyCanonical, statusExists, h]
  exact canonical_eq_ok_iff.mpr ⟨loc, h, rfl⟩

theorem noClimb_of_canonical {path canon : Path} (h : fs.canonical path = .ok canon) :
    dotdot ∉ canon.comps := by
  obtain ⟨loc, hfound, rfl⟩ := canonical_eq_ok_iff.mp h
  have hexists := fs.resolve_sound true path
  rw [hfound] at hexists
  exact fun hup ↦ (FileTree.properName_of_mem hexists hup).2.2.1 rfl

/-- `weakly_canonical` leaves no `..` in an absolute path. -/
theorem noClimb_of_weaklyCanonical {path canon : Path} (h : fs.weaklyCanonical path = .ok canon)
    (habsolute : canon.absolute = true) : dotdot ∉ canon.comps := by
  unfold weaklyCanonical at h
  split at h
  · exact nomatch h
  · exact noClimb_of_canonical h
  · split at h
    · exact nomatch h
    · split_ifs at h with hrelative
      · rw [← Except.ok.inj h] at habsolute
        unfold Path.lexicallyNormal at habsolute
        simp only at habsolute
        split_ifs at habsolute
      · split at h
        · exact nomatch h
        · rw [← Except.ok.inj h]
          exact (Path.lexicallyNormal_noClimb _).2

end FileSystem

end LibSshpp.Posix
