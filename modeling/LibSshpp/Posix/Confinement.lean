import LibSshpp.Posix.PathWalk

/-!
Confinement of a tree under one of its directories. A walk is inside a root when
whatever it leads to lies there, and a root is confined when every symbolic link
below it is followed to the inside. Two facts carry everything that is proved about
confined trees: a path without `..` that starts inside stays inside, and an edit of
the tree below the root keeps it confined as long as the links that the edit puts in
place, or that were waiting for the filled name with `..` still to come, are
followed to the inside.
-/

set_option autoImplicit false
set_option relaxedAutoImplicit false

namespace LibSshpp.Posix

/-- A walk that leads to nothing outside `root`: it ends there, or would create an
object there, or leads nowhere. -/
def Walk.Inside (root : Loc) : Walk → Prop
  | .found loc => root <+: loc
  | .missing dir _ rest => rest = [] → root <+: dir
  | .failed _ => True

/-- Every link in a directory inside `root` is followed to the inside with the
given number of further links. -/
def LinksInsideWithin (root : Loc) (tree : FileTree) (links : ℕ) : Prop :=
  ∀ dir name target attr, root <+: dir → tree.get (dir ++ [name]) = some (.symlink target attr) →
    (walk tree true links (linkStart dir target) (linkComps target)).Inside root

/-- Every symbolic link under `root` resolves inside `root`. -/
def LinksInside (root : Loc) (tree : FileTree) : Prop :=
  LinksInsideWithin root tree maxSymlinks

/-- A location under `root` and other than `root` itself. -/
def Below (root loc : Loc) : Prop := root <+: loc ∧ loc ≠ root

theorem Below.dir {root dir : Loc} {name : Name} (h : Below root (dir ++ [name])) :
    root <+: dir := by
  rcases List.prefix_concat_iff.mp h.1 with heq | hunder
  · exact absurd heq.symm h.2
  · exact hunder

theorem below_concat {root dir : Loc} (h : root <+: dir) (name : Name) :
    Below root (dir ++ [name]) := by
  refine ⟨h.trans (List.prefix_append _ _), ?_⟩
  rintro rfl
  have hlength := h.length_le
  rw [List.length_append] at hlength
  exact Nat.not_succ_le_self _ hlength

theorem Walk.Inside.of_more {root : Loc} {tree : FileTree} {follow : Bool} {links more : ℕ}
    {cur : Loc} {comps : List Name} (h : (walk tree follow more cur comps).Inside root)
    (hmore : links ≤ more) : (walk tree follow links cur comps).Inside root := by
  rcases walk_eq_or_eloop hmore cur comps with heq | heq
  · rw [heq]
    exact h
  · rw [heq]
    trivial

theorem LinksInside.within {root : Loc} {tree : FileTree} (h : LinksInside root tree) {links : ℕ}
    (hlinks : links ≤ maxSymlinks) : LinksInsideWithin root tree links :=
  fun dir name target attr hdir hget ↦ (h dir name target attr hdir hget).of_more hlinks

/-- A path without `..` stays inside. Assumes: the links under the root that the walk
could follow are followed to the inside. -/
theorem walk_inside_of_within {root : Loc} {tree : FileTree} {follow : Bool} {links : ℕ}
    (hwithin : ∀ fewer < links, LinksInsideWithin root tree fewer) {cur : Loc}
    (hcur : root <+: cur) (hdir : tree.isDir cur = true) {comps : List Name}
    (hup : dotdot ∉ comps) : (walk tree follow links cur comps).Inside root := by
  induction links using Nat.strong_induction_on generalizing cur comps with
  | h links ihLinks =>
    induction comps generalizing cur with
    | nil =>
      rw [walk_nil]
      exact hcur
    | cons comp rest ih =>
      rw [List.mem_cons, not_or] at hup
      by_cases hidle : isIdle comp
      · rw [walk_idle hidle]
        exact ih hcur hdir hup.2
      · have hentry : isEntryName comp := ⟨hidle, Ne.symm hup.1⟩
        have hnext : root <+: cur ++ [comp] := hcur.trans (List.prefix_append _ _)
        rcases hget : tree.get (cur ++ [comp]) with _ | (ino | ino | ⟨target, attr⟩)
        · rw [walk_absent hentry hget]
          exact fun _ ↦ hcur
        · rw [walk_dir hentry hget]
          exact ih hnext (FileTree.isDir_iff.mpr ⟨ino, hget⟩) hup.2
        · rw [walk_file hentry hget]
          split_ifs
          · exact hnext
          · trivial
        · by_cases hgo : rest = [] ∧ follow = false
          · rw [hgo.1, hgo.2, walk_link_kept hentry hget]
            exact hnext
          · cases links with
            | zero =>
              rw [walk_link_exhausted hentry hget hgo]
              trivial
            | succ links =>
              -- the target is walked to the inside, and the rest goes on from there
              rw [walk_link hentry hget hgo]
              have hlink := hwithin links (Nat.lt_succ_self links) cur comp target attr hcur hget
              by_cases hlast : rest = []
              · have hfollow : follow = true := by simpa [hlast] using hgo
                rw [hlast, List.append_nil, hfollow]
                exact hlink
              · have hcontinues := walk_append follow links (linkComps target) hlast
                  (isDir_linkStart hdir target)
                rcases hwalk : walk tree true links (linkStart cur target) (linkComps target) with
                  loc | ⟨dir, name, missing⟩ | error
                · rw [hwalk] at hlink hcontinues
                  rw [Walk.Continues] at hcontinues
                  split_ifs at hcontinues with hloc
                  · obtain ⟨left, hleft, heq⟩ := hcontinues
                    rw [heq]
                    exact ihLinks left (Nat.lt_succ_of_le hleft)
                      (fun fewer hfewer ↦ hwithin fewer (by omega)) hlink hloc hup.2
                  · rw [hcontinues]
                    trivial
                · rw [hwalk, Walk.Continues] at hcontinues
                  rw [hcontinues]
                  exact fun hnil ↦ absurd (List.append_eq_nil_iff.mp hnil).2 hlast
                · rw [hwalk, Walk.Continues] at hcontinues
                  rw [hcontinues]
                  trivial

/-- In a confined tree a path without `..` that starts inside stays inside. -/
theorem LinksInside.walk_inside {root : Loc} {tree : FileTree} (h : LinksInside root tree)
    {follow : Bool} {links : ℕ} (hlinks : links ≤ maxSymlinks) {cur : Loc} (hcur : root <+: cur)
    (hdir : tree.isDir cur = true) {comps : List Name} (hup : dotdot ∉ comps) :
    (walk tree follow links cur comps).Inside root :=
  walk_inside_of_within (fun _ hfewer ↦ h.within (hfewer.le.trans hlinks)) hcur hdir hup

/-! ### Two trees -/

/-- The walks of one path in two trees either end alike or come together to a first
name at which the trees differ. -/
theorem walk_diverges (before after : FileTree) (follow : Bool) (links : ℕ) (cur : Loc)
    (comps : List Name) (hbefore : before.isDir cur = true) (hafter : after.isDir cur = true) :
    walk after follow links cur comps = walk before follow links cur comps ∨
      ∃ left ≤ links, ∃ dir name rest, isEntryName name ∧
        after.get (dir ++ [name]) ≠ before.get (dir ++ [name]) ∧
        before.isDir dir = true ∧ after.isDir dir = true ∧
        walk before follow links cur comps = walk before follow left dir (name :: rest) ∧
        walk after follow links cur comps = walk after follow left dir (name :: rest) := by
  induction links, cur, comps using walk_induction before follow with
  | nil links cur => exact Or.inl (by rw [walk_nil, walk_nil])
  | idle links cur comp rest hidle ih =>
    rw [walk_idle hidle, walk_idle hidle]
    exact ih hbefore hafter
  | up links cur rest ih =>
    rw [walk_dotdot, walk_dotdot]
    exact ih (isDir_dropLast_of_isDir hbefore) (isDir_dropLast_of_isDir hafter)
  | absent links cur comp rest hentry hget =>
    by_cases hsame : after.get (cur ++ [comp]) = before.get (cur ++ [comp])
    · rw [walk_absent hentry hget, walk_absent hentry (hsame.trans hget)]
      exact Or.inl rfl
    · exact Or.inr ⟨links, le_rfl, cur, comp, rest, hentry, hsame, hbefore, hafter, rfl, rfl⟩
  | dir links cur comp rest ino hentry hget ih =>
    by_cases hsame : after.get (cur ++ [comp]) = before.get (cur ++ [comp])
    · rw [walk_dir hentry hget, walk_dir hentry (hsame.trans hget)]
      exact ih (FileTree.isDir_iff.mpr ⟨ino, hget⟩)
        (FileTree.isDir_iff.mpr ⟨ino, hsame.trans hget⟩)
    · exact Or.inr ⟨links, le_rfl, cur, comp, rest, hentry, hsame, hbefore, hafter, rfl, rfl⟩
  | file links cur comp rest ino hentry hget =>
    by_cases hsame : after.get (cur ++ [comp]) = before.get (cur ++ [comp])
    · rw [walk_file hentry hget, walk_file hentry (hsame.trans hget)]
      exact Or.inl rfl
    · exact Or.inr ⟨links, le_rfl, cur, comp, rest, hentry, hsame, hbefore, hafter, rfl, rfl⟩
  | kept links cur comp target attr hentry hget hfollow =>
    by_cases hsame : after.get (cur ++ [comp]) = before.get (cur ++ [comp])
    · rw [hfollow, walk_link_kept hentry hget, walk_link_kept hentry (hsame.trans hget)]
      exact Or.inl rfl
    · exact Or.inr ⟨links, le_rfl, cur, comp, [], hentry, hsame, hbefore, hafter, rfl, rfl⟩
  | exhausted cur comp rest target attr hentry hget hgo =>
    by_cases hsame : after.get (cur ++ [comp]) = before.get (cur ++ [comp])
    · rw [walk_link_exhausted hentry hget hgo,
        walk_link_exhausted hentry (hsame.trans hget) hgo]
      exact Or.inl rfl
    · exact Or.inr ⟨0, le_rfl, cur, comp, rest, hentry, hsame, hbefore, hafter, rfl, rfl⟩
  | link links cur comp rest target attr hentry hget hgo ih =>
    by_cases hsame : after.get (cur ++ [comp]) = before.get (cur ++ [comp])
    · rw [walk_link hentry hget hgo, walk_link hentry (hsame.trans hget) hgo]
      rcases ih (isDir_linkStart hbefore target) (isDir_linkStart hafter target) with
        heq | ⟨left, hleft, hrest⟩
      · exact Or.inl heq
      · exact Or.inr ⟨left, hleft.trans (Nat.le_succ links), hrest⟩
    · exact Or.inr ⟨links + 1, le_rfl, cur, comp, rest, hentry, hsame, hbefore, hafter, rfl, rfl⟩

/-- A change of the tree below `root`: where the two trees differ, the new one has
nothing, or a file, or an object at a location that was free before and is `placed`
by the edit. -/
structure Edit (root : Loc) (before after : FileTree) (placed : Loc → Prop) : Prop where
  below : ∀ loc, after.get loc ≠ before.get loc → Below root loc
  kind : ∀ loc, after.get loc ≠ before.get loc →
    after.get loc = none ∨ (∃ ino, after.get loc = some (.file ino)) ∨ placed loc
  free : ∀ loc, placed loc → before.get loc = none

/-- A link that ends at a missing name which an edit fills, with `..` among the
components that are still to come. -/
def AwaitsAndClimbs (before : FileTree) (placed : Loc → Prop) (dir : Loc)
    (target : LinkTarget) : Prop :=
  ∃ upper name rest,
    walk before true maxSymlinks (linkStart dir target) (linkComps target) =
        .missing upper name rest ∧
      placed (upper ++ [name]) ∧ dotdot ∈ rest

/-- The links that an edit puts in place, and those that it lets climb on, resolve
inside the root once the edit is made. -/
def PlacesInside (root : Loc) (before after : FileTree) (placed : Loc → Prop) : Prop :=
  ∀ dir name target attr, root <+: dir → after.get (dir ++ [name]) = some (.symlink target attr) →
    placed (dir ++ [name]) ∨ AwaitsAndClimbs before placed dir target →
      (walk after true maxSymlinks (linkStart dir target) (linkComps target)).Inside root

theorem LinksInside.edit_within {root : Loc} {before after : FileTree} {placed : Loc → Prop}
    (h : LinksInside root before) (hedit : Edit root before after placed)
    (hplaces : PlacesInside root before after placed) {links : ℕ} (hlinks : links ≤ maxSymlinks) :
    LinksInsideWithin root after links := by
  induction links using Nat.strong_induction_on with
  | h links ih =>
    intro dir name target attr hdir hget
    by_cases hplaced : placed (dir ++ [name])
    · exact (hplaces dir name target attr hdir hget (Or.inl hplaced)).of_more hlinks
    · have hsame : after.get (dir ++ [name]) = before.get (dir ++ [name]) := by
        by_contra hchanged
        rcases hedit.kind _ hchanged with hnone | ⟨ino, hfile⟩ | hput
        · exact nomatch hget.symm.trans hnone
        · exact nomatch hget.symm.trans hfile
        · exact hplaced hput
      have hold := h.within hlinks dir name target attr hdir (hsame.symm.trans hget)
      have hafter : after.isDir dir = true :=
        FileTree.isDir_of_get_concat (ne_of_eq_of_ne hget (Option.some_ne_none _))
      have hbefore : before.isDir dir = true :=
        FileTree.isDir_of_get_concat
          (ne_of_eq_of_ne (hsame.symm.trans hget) (Option.some_ne_none _))
      rcases walk_diverges before after true links (linkStart dir target) (linkComps target)
          (isDir_linkStart hbefore target) (isDir_linkStart hafter target) with
        heq | ⟨left, hleft, upper, last, rest, hentry, hchanged, _, hupper, hwalk, hwalk'⟩
      · rw [heq]
        exact hold
      · have hinside : root <+: upper := (hedit.below _ hchanged).dir
        rcases hedit.kind _ hchanged with hnone | ⟨ino, hfile⟩ | hput
        · rw [hwalk', walk_absent hentry hnone]
          exact fun _ ↦ hinside
        · rw [hwalk', walk_file hentry hfile]
          split_ifs
          · exact hinside.trans (List.prefix_append _ _)
          · trivial
        · by_cases hup : dotdot ∈ rest
          · -- the link was waiting for the filled name
            rw [walk_absent hentry (hedit.free _ hput)] at hwalk
            have hmax : walk before true maxSymlinks (linkStart dir target) (linkComps target) =
                .missing upper last rest := by
              rw [← hwalk]
              exact walk_of_not_eloop (by simp [hwalk]) hlinks
            exact (hplaces dir name target attr hdir hget
              (Or.inr ⟨upper, last, rest, hmax, hput, hup⟩)).of_more hlinks
          · rw [hwalk']
            refine walk_inside_of_within (fun fewer hfewer ↦ ?_) hinside hupper ?_
            · exact ih fewer (by omega) (by omega)
            · rw [List.mem_cons, not_or]
              exact ⟨Ne.symm hentry.2, hup⟩

/-- An edit below the root keeps it confined. Assumes: the links it puts in place or
lets climb on resolve inside. -/
theorem LinksInside.edit {root : Loc} {before after : FileTree} {placed : Loc → Prop}
    (h : LinksInside root before) (hedit : Edit root before after placed)
    (hplaces : PlacesInside root before after placed) : LinksInside root after :=
  h.edit_within hedit hplaces le_rfl

end LibSshpp.Posix
