import LibSshpp.Sftp.LostFailures

/-!
Walking the range of `sftp::entries`. The iterator and `try_list` are two loops over
`Directory::next`, each with its own way to leave out the dot entries. `try_list` asks
for `last_error` after its loop. The iterator takes a read that failed for the end, and
the directory that keeps the error is private to the range.
-/

set_option autoImplicit false
set_option relaxedAutoImplicit false

namespace LibSshpp.Sftp

open ListingSession Program

/-! ### The iterator -/

/-- A `DirectoryIterator`. Its pointer is null or to the directory of its range. -/
structure DirectoryIterator where
  hasDir : Bool := false
  skipDot : Bool := true
  current : Option Attributes := none
  deriving DecidableEq, Repr

namespace DirectoryIterator

/-- The loop of `advance`. Each round but the last one consumes an outcome. -/
def advanceLoop (skipDot : Bool) : ℕ → StateM Directory (Option Attributes)
  | 0 => pure none
  | rounds + 1 => do
    match ← Directory.next with
    | none => pure none
    | some entry =>
      if !skipDot || !isDotEntry entry then pure (some entry) else advanceLoop skipDot rounds

/-- `DirectoryIterator::advance`. An error would be an exception. -/
def advance (iterator : DirectoryIterator) : StateM Directory (Result DirectoryIterator) :=
  fun directory ↦
    if iterator.hasDir = false then (.ok { iterator with current := none }, directory)
    else
      let (current, directory) :=
        advanceLoop iterator.skipDot (directory.outcomes.length + 1) directory
      (.ok { iterator with current }, directory)

/-- `operator==`. -/
def equals (iterator other : DirectoryIterator) : Bool :=
  iterator.current.isNone && other.current.isNone

end DirectoryIterator

/-- The range that owns the directory it walks. -/
structure DirectoryRange where
  dir : Directory
  deriving DecidableEq, Repr

namespace DirectoryRange

/-- `DirectoryRange::begin`. -/
def beginIterator : StateM Directory (Result DirectoryIterator) :=
  DirectoryIterator.advance { hasDir := true }

/-- `DirectoryRange::end`. -/
def endIterator : DirectoryIterator := {}

/-- The rounds of a range-based `for` that keeps what it visits. Each round but the
last one goes past an entry. -/
def walkLoop : ℕ → DirectoryIterator → List Attributes →
    StateM Directory (Result (List Attributes))
  | 0, _, visited => pure (.ok visited)
  | rounds + 1, iterator, visited =>
    if iterator.equals endIterator then pure (.ok visited)
    else do
      match ← iterator.advance with
      | .error info => pure (.error info)
      | .ok next => walkLoop rounds next (visited ++ iterator.current.toList)

/-- What a walk from `begin` to `end` visits, or the exception that ends it. -/
def walk (range : DirectoryRange) : Result (List Attributes) :=
  match beginIterator range.dir with
  | (.error info, _) => .error info
  | (.ok iterator, dir) => (walkLoop (range.dir.outcomes.length + 1) iterator [] dir).1

end DirectoryRange

namespace ListingSession

/-- `sftp::entries`. -/
def entries (sftp : ListingSession) : Result DirectoryRange :=
  match sftp.tryOpenDirectory with
  | .error info => .error info
  | .ok dir => .ok { dir }

/-- A walk of the range of `sftp::entries`, if there is one. -/
def walkEntries (sftp : ListingSession) : Result (List Attributes) :=
  match sftp.entries with
  | .error info => .error info
  | .ok range => range.walk

end ListingSession

/-! ### What an iterator visits -/

namespace DirectoryIterator

/-- The entries an iterator stops at. -/
def visible (skipDot : Bool) (outcomes : List Readdir) : List Attributes :=
  (entriesBefore outcomes).filter fun entry ↦ !skipDot || !isDotEntry entry

theorem visible_entry (skipDot : Bool) (raw : NativeAttributes) (outcomes : List Readdir) :
    visible skipDot (.entry raw :: outcomes) =
      if !skipDot || !isDotEntry (attributesFromNative raw) then
        attributesFromNative raw :: visible skipDot outcomes
      else visible skipDot outcomes := by
  rw [visible, entriesBefore, List.filter_cons]
  rfl

/-- Advancing stops at the first visible entry, and what is visible behind it is the
rest of what was visible. -/
theorem advanceLoop_spec (skipDot : Bool) (outcomes : List Readdir) :
    ∀ (rounds : ℕ) (lastError : ErrorInfo), outcomes.length < rounds →
      ∃ after, advanceLoop skipDot rounds { outcomes, lastError } =
          ((visible skipDot outcomes).head?, after) ∧ after.native = true ∧
        ((visible skipDot outcomes).head?.isSome →
          visible skipDot after.outcomes = (visible skipDot outcomes).tail ∧
            after.outcomes.length < outcomes.length) := by
  induction outcomes with
  | nil =>
    rintro (_ | rounds) lastError hrounds
    · exact absurd hrounds (Nat.not_lt_zero _)
    · exact ⟨{ outcomes := [], lastError }, rfl, rfl, fun h ↦ nomatch h⟩
  | cons outcome outcomes ih =>
    rintro (_ | rounds) lastError hrounds
    · exact absurd hrounds (Nat.not_lt_zero _)
    rw [List.length_cons] at hrounds
    have hnext := next_cons outcome outcomes lastError
    cases outcome with
    | entry raw =>
      rw [advanceLoop, bind_of_eq hnext, visible_entry]
      by_cases hkeep : (!skipDot || !isDotEntry (attributesFromNative raw)) = true
      · simp only [if_pos hkeep]
        exact ⟨{ outcomes, lastError }, rfl, rfl, fun _ ↦ ⟨rfl, Nat.lt_succ_self _⟩⟩
      · simp only [if_neg hkeep]
        obtain ⟨after, hadvance, hnative, hrest⟩ := ih rounds lastError (by omega)
        refine ⟨after, hadvance, hnative, fun hsome ↦ ?_⟩
        obtain ⟨hvisible, hlength⟩ := hrest hsome
        exact ⟨hvisible, Nat.lt_succ_of_lt hlength⟩
    | endOfDirectory =>
      rw [advanceLoop, bind_of_eq hnext]
      exact ⟨_, rfl, rfl, fun h ↦ nomatch h⟩
    | failed status =>
      rw [advanceLoop, bind_of_eq hnext]
      exact ⟨_, rfl, rfl, fun h ↦ nomatch h⟩

/-- The entries an iterator has still to visit. -/
def remaining (iterator : DirectoryIterator) (directory : Directory) : List Attributes :=
  match iterator.current with
  | none => []
  | some entry => entry :: visible iterator.skipDot directory.outcomes

/-- Advancing throws nothing, and leaves what is visible in the directory to visit. -/
theorem advance_spec {iterator : DirectoryIterator} (hdir : iterator.hasDir = true)
    {directory : Directory} (hnative : directory.native = true) :
    ∃ next after, iterator.advance directory = (.ok next, after) ∧
      next.hasDir = true ∧ after.native = true ∧
      next.remaining after = visible iterator.skipDot directory.outcomes ∧
      (next.current.isSome → after.outcomes.length < directory.outcomes.length) := by
  obtain ⟨native, outcomes, lastError⟩ := directory
  obtain rfl : native = true := hnative
  obtain ⟨after, hloop, hafter, hrest⟩ :=
    advanceLoop_spec iterator.skipDot outcomes (outcomes.length + 1) lastError (Nat.lt_succ_self _)
  refine ⟨{ iterator with current := (visible iterator.skipDot outcomes).head? }, after, ?_, hdir,
    hafter, ?_, fun hsome ↦ (hrest hsome).2⟩
  · rw [advance, if_neg (by rw [hdir]; decide)]
    simp only [hloop]
  · cases hvisible : visible iterator.skipDot outcomes with
    | nil => rfl
    | cons entry entries =>
      have hbehind := (hrest (by rw [hvisible]; rfl)).1
      rw [hvisible, List.tail_cons] at hbehind
      show entry :: visible iterator.skipDot after.outcomes = _
      rw [hbehind]

end DirectoryIterator

namespace DirectoryRange

open DirectoryIterator

/-- A walk visits what its iterator has still to visit. The number of rounds is enough
as long as the iterator is not past the end. -/
theorem walkLoop_eq (rounds : ℕ) :
    ∀ {iterator : DirectoryIterator} {directory : Directory} (visited : List Attributes),
      iterator.hasDir = true → directory.native = true →
        (iterator.current.isSome → directory.outcomes.length < rounds) →
          (walkLoop rounds iterator visited directory).1 =
            .ok (visited ++ iterator.remaining directory) := by
  induction rounds with
  | zero =>
    intro iterator directory visited _ _ hrounds
    have hpast : iterator.current = none := by
      rw [← Option.not_isSome_iff_eq_none]
      exact fun hsome ↦ absurd (hrounds hsome) (Nat.not_lt_zero _)
    rw [remaining, hpast, List.append_nil]
    rfl
  | succ rounds ih =>
    intro iterator directory visited hdir hnative hrounds
    cases hcurrent : iterator.current with
    | none =>
      rw [walkLoop, if_pos (by rw [equals, hcurrent]; rfl), remaining, hcurrent, List.append_nil]
      rfl
    | some entry =>
      have hlength := hrounds (by rw [hcurrent]; rfl)
      obtain ⟨next, after, hadvance, hdir', hnative', hremaining, hshorter⟩ :=
        advance_spec hdir hnative
      have hmore : ¬ iterator.equals endIterator = true := by
        rw [equals, hcurrent]
        exact Bool.false_ne_true
      rw [walkLoop, if_neg hmore, bind_of_eq hadvance]
      dsimp only
      rw [ih _ hdir' hnative' fun hsome ↦ by have := hshorter hsome; omega, hremaining,
        List.append_assoc, remaining, hcurrent]
      rfl

theorem walk_eq (outcomes : List Readdir) :
    walk { dir := { outcomes } } = .ok (visible true outcomes) := by
  obtain ⟨iterator, dir, hbegin, hdir, hnative, hremaining, hshorter⟩ :=
    @advance_spec { hasDir := true } rfl { outcomes } rfl
  rw [walk, beginIterator, hbegin]
  dsimp only
  rw [walkLoop_eq _ _ hdir hnative fun hsome ↦ Nat.lt_succ_of_lt (hshorter hsome), hremaining,
    List.nil_append]

end DirectoryRange

/-! ### Walks and listings -/

namespace ListingSession

/-- A walk visits what the listing of the same directory delivers, and raises an error
where the listing reports that a read failed. -/
structure WalkAgrees (sftp : ListingSession) : Prop where
  visits : ∀ listed, sftp.tryList = .ok listed → sftp.walkEntries = .ok listed
  raises : ∀ status, sftp.ReadFails status → (∃ info, sftp.tryList = .error info) →
    ∃ info, sftp.walkEntries = .error info

/-- On a directory that could be opened a walk ends normally, with the entries before
the end or the failure. -/
theorem walkEntries_eq {sftp : ListingSession} (hopen : sftp.isOpen = true)
    (hrefusal : sftp.refusal = none) :
    sftp.walkEntries =
      .ok ((entriesBefore sftp.outcomes).filter fun entry ↦ !isDotEntry entry) := by
  have hentries : sftp.entries = .ok { dir := { outcomes := sftp.outcomes } } := by
    simp [entries, tryOpenDirectory, hopen, hrefusal]
  rw [walkEntries, hentries]
  exact DirectoryRange.walk_eq sftp.outcomes

/-- A listing that delivers something could open its directory. -/
theorem tryList_opened {sftp : ListingSession} {listed : List Attributes}
    (h : sftp.tryList = .ok listed) : sftp.isOpen = true ∧ sftp.refusal = none := by
  unfold tryList tryOpenDirectory at h
  by_cases hopen : sftp.isOpen = false
  · rw [if_pos hopen] at h
    exact nomatch h
  · rw [if_neg hopen] at h
    cases hrefusal : sftp.refusal with
    | none => exact ⟨Bool.not_eq_false _ ▸ hopen, rfl⟩
    | some status =>
      rw [hrefusal] at h
      exact nomatch h

/-- Where the listing delivers something, a walk visits the same entries in the same
order. -/
theorem walkEntries_of_tryList {sftp : ListingSession} {listed : List Attributes}
    (h : sftp.tryList = .ok listed) : sftp.walkEntries = .ok listed := by
  obtain ⟨hopen, hrefusal⟩ := tryList_opened h
  rw [tryList_eq hopen hrefusal] at h
  split_ifs at h
  rw [walkEntries_eq hopen hrefusal]
  exact h

/-- A walk agrees with the listing of the same directory if and only if no read of an
entry fails with a status other than `SSH_FX_OK`. -/
theorem walkAgrees_iff (sftp : ListingSession) :
    sftp.WalkAgrees ↔ ¬ ∃ status, sftp.ReadFails status ∧ status ≠ 0 := by
  constructor
  · rintro hagrees ⟨status, hfails, hne⟩
    obtain ⟨info, hraised⟩ :=
      hagrees.raises status hfails ((tryList_error_iff hfails).mpr hne)
    obtain ⟨hopen, hrefusal, -⟩ := hfails
    rw [walkEntries_eq hopen hrefusal] at hraised
    exact nomatch hraised
  · intro hnone
    refine ⟨fun listed ↦ walkEntries_of_tryList, fun status hfails herror ↦ ?_⟩
    exact absurd ⟨status, hfails, (tryList_error_iff hfails).mp herror⟩ hnone

/-- A directory with one entry, after which the server answers `SSH_FX_FAILURE`. -/
def brokenListing : ListingSession where
  outcomes := [.entry { name := some (ascii "a") }, .failed 4]

/-- `try_list` reports the failure, and a walk ends after the first entry as it does at
the end of a directory. -/
theorem brokenListing_walkEntries :
    brokenListing.tryList = .error (makeSftpErrorInfo 4 {} "sftp_readdir") ∧
      brokenListing.walkEntries = .ok [attributesFromNative { name := some (ascii "a") }] ∧
      ¬ brokenListing.WalkAgrees := by
  have hlist : brokenListing.tryList =
      .error (makeSftpErrorInfo 4 {} "sftp_readdir") := by decide +kernel
  have hwalk : brokenListing.walkEntries =
      .ok [attributesFromNative { name := some (ascii "a") }] := by decide +kernel
  refine ⟨hlist, hwalk, fun hagrees ↦ ?_⟩
  obtain ⟨info, hraised⟩ := hagrees.raises 4
    ⟨rfl, rfl, [{ name := some (ascii "a") }], [], rfl⟩ ⟨_, hlist⟩
  rw [hwalk] at hraised
  exact nomatch hraised

end ListingSession

end LibSshpp.Sftp
