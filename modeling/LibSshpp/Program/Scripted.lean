import LibSshpp.Program.CopyLoop
import LibSshpp.Program.ExactTransfer
import LibSshpp.Program.StateTriple

/-!
A program that meets another world than its own: where one of them calls the other side, the
other one reads its answers off a script. Two programs go together if every run of the first is
a run of the second with the right script, from related states to related states. The rules carry
that from calls to loops and to runs of any calls.
-/

set_option autoImplicit false
set_option relaxedAutoImplicit false

namespace LibSshpp.Program

variable {σ ρ ω α β ι ε : Type} {feed : ρ → List ω → ρ} {related : σ → ρ → Prop}

/-- From a state of its own the second program does what the first one does from another once it
is given the right answers. Those it is given beyond them are left. -/
def ScriptsAt (feed : ρ → List ω → ρ) (related : σ → ρ → Prop) (program : StateM σ α)
    (scripted : StateM ρ α) (state : σ) (other : ρ) : Prop :=
  ∃ script after, related (program state).2 after ∧
    ∀ rest, scripted (feed other (script ++ rest)) = ((program state).1, feed after rest)

/-- From all related states the second program can do what the first one does. -/
def Scripts (feed : ρ → List ω → ρ) (related : σ → ρ → Prop) (program : StateM σ α)
    (scripted : StateM ρ α) : Prop :=
  ∀ state other, related state other → ScriptsAt feed related program scripted state other

namespace Scripts

theorem pure (value : α) :
    Scripts feed related (Pure.pure value : StateM σ α) (Pure.pure value : StateM ρ α) :=
  fun _ other hrelated ↦ ⟨[], other, hrelated, fun _ ↦ rfl⟩

theorem bind {program : StateM σ α} {scripted : StateM ρ α} {next : α → StateM σ β}
    {scriptedNext : α → StateM ρ β} (h : Scripts feed related program scripted)
    (hnext : ∀ value, Scripts feed related (next value) (scriptedNext value)) :
    Scripts feed related (program >>= next) (scripted >>= scriptedNext) := by
  intro state other hrelated
  obtain ⟨script, middle, hmiddle, hscripted⟩ := h state other hrelated
  obtain ⟨more, after, hafter, hlater⟩ := hnext (program state).1 _ middle hmiddle
  refine ⟨script ++ more, after, hafter, fun rest ↦ ?_⟩
  rw [List.append_assoc, bind_of_eq (hscripted (more ++ rest)), hlater rest]
  rfl

theorem map {program : StateM σ α} {scripted : StateM ρ α} (f : α → β)
    (h : Scripts feed related program scripted) :
    Scripts feed related (f <$> program) (f <$> scripted) :=
  bind h fun value ↦ pure (f value)

/-- A buffer is moved by both programs alike if every part of it is. -/
theorem transferLoop {nothing : ε} {transfer : Span → StateM σ (Except ε ℕ)}
    {scripted : Span → StateM ρ (Except ε ℕ)} {view : Span}
    (h : ∀ span, Scripts feed related (transfer span) (scripted span)) (moved : ℕ) :
    Scripts feed related (Program.transferLoop nothing transfer view moved)
      (Program.transferLoop nothing scripted view moved) := by
  rw [Program.transferLoop, Program.transferLoop]
  by_cases hleft : moved < view.length
  · rw [if_pos hleft, if_pos hleft]
    refine bind (h _) fun result ↦ ?_
    rcases result with error | _ | count
    · exact pure _
    · exact pure _
    · exact transferLoop h (moved + (count + 1))
  · rw [if_neg hleft, if_neg hleft]
    exact pure _
termination_by view.length - moved

theorem writeAll {shortWrite : ε} {writeSome : List α → StateM σ (Except ε ℕ)}
    {scripted : List α → StateM ρ (Except ε ℕ)}
    (h : ∀ data, Scripts feed related (writeSome data) (scripted data)) (data : List α) :
    Scripts feed related (Program.writeAll shortWrite writeSome data)
      (Program.writeAll shortWrite scripted data) := by
  rw [show Program.writeAll shortWrite writeSome data = _ from
      funext (writeAll_eq_transferLoop shortWrite writeSome data),
    show Program.writeAll shortWrite scripted data = _ from
      funext (writeAll_eq_transferLoop shortWrite scripted data)]
  exact transferLoop (fun _ ↦ h _) 0

/-- What both programs keep apart from the relation. -/
theorem keeping {program : StateM σ α} {scripted : StateM ρ α} {inv : σ → Prop} {other : ρ → Prop}
    (h : Scripts feed related program scripted) (hinv : Keeps inv program)
    (hother : Keeps other scripted) (hfeed : ∀ state rest, other (feed state rest) ↔ other state) :
    Scripts feed (fun state shown ↦ related state shown ∧ inv state ∧ other shown) program
      scripted := by
  rintro state shown ⟨hrelated, hstate, hshown⟩
  obtain ⟨script, after, hafter, hscripted⟩ := h state shown hrelated
  have hkept : other (feed after []) := by
    have hrun := hother (feed shown (script ++ [])) ((hfeed shown _).mpr hshown)
    rwa [hscripted []] at hrun
  exact ⟨script, after, ⟨hafter, hinv state hstate, (hfeed after []).mp hkept⟩, hscripted⟩

/-- Programs on a part of the states. -/
theorem onPart {σ' ρ' : Type} {feed' : ρ' → List ω → ρ'} {related' : σ' → ρ' → Prop}
    {program : StateM σ α} {scripted : StateM ρ α} (part : σ' → σ) (put : σ' → σ → σ')
    (part' : ρ' → ρ) (put' : ρ' → ρ → ρ') (h : Scripts feed related program scripted)
    (hpart : ∀ state shown, related' state shown → related (part state) (part' shown))
    (hput : ∀ state shown after later, related' state shown → related after later →
      related' (put state after) (put' shown later))
    (hfeed : ∀ shown rest, part' (feed' shown rest) = feed (part' shown) rest)
    (hfed : ∀ shown after rest more,
      put' (feed' shown rest) (feed after more) = feed' (put' shown after) more) :
    Scripts feed' related'
      (fun state ↦ ((program (part state)).1, put state (program (part state)).2))
      (fun shown ↦ ((scripted (part' shown)).1, put' shown (scripted (part' shown)).2)) := by
  intro state shown hrelated
  obtain ⟨script, after, hafter, hscripted⟩ := h _ _ (hpart state shown hrelated)
  refine ⟨script, put' shown after, hput state shown _ _ hrelated hafter, fun rest ↦ ?_⟩
  simp only [hfeed, hscripted, hfed]

/-- Both programs do the same without the other side. -/
theorem step {β' : Type} {program : StateM σ β'} {scripted : StateM ρ β'}
    (h : ∀ state shown, related state shown → ∃ after, related (program state).2 after ∧
      ∀ rest, scripted (feed shown rest) = ((program state).1, feed after rest)) :
    Scripts feed related program scripted := by
  intro state shown hrelated
  obtain ⟨after, hafter, hscripted⟩ := h state shown hrelated
  exact ⟨[], after, hafter, hscripted⟩

end Scripts

/-! ### Copying -/

section CopyLoop

variable {δ : Type}

/-- What a round of `copyLoop` does once it has read. -/
def afterRead (write : List δ → StateM σ (Except ε Unit)) (check : ℕ → Option ε)
    (later : ℕ → StateM σ (Except ε ℕ)) (total : ℕ) :
    Except ε (List δ) → StateM σ (Except ε ℕ)
  | .error error => pure (.error error)
  | .ok [] => pure (.ok total)
  | .ok (first :: rest) => do
    match ← write (first :: rest) with
    | .error error => return .error error
    | .ok () =>
      match check (total + (first :: rest).length) with
      | some error => return .error error
      | none => later (total + (first :: rest).length)

theorem copyLoop_of_some {want : σ → ℕ → Option ℕ} {read : ℕ → StateM σ (Except ε (List δ))}
    {write : List δ → StateM σ (Except ε Unit)} {check : ℕ → Option ε} {rounds total len : ℕ}
    {state : σ} (h : want state total = some len) :
    copyLoop want read write check (rounds + 1) total state =
      (read len >>= afterRead write check (copyLoop want read write check rounds) total) state := by
  rw [copyLoop]
  simp only [h]
  rcases hread : read len state with ⟨error | _ | ⟨first, rest⟩, middle⟩
  · rw [bind_of_eq hread]
    rfl
  · rw [bind_of_eq hread]
    rfl
  · rw [bind_of_eq hread, afterRead]
    rcases hwrite : write (first :: rest) middle with ⟨error | _, written⟩
    · rw [bind_of_eq hwrite]
      simp only [hwrite]
      rfl
    · rw [bind_of_eq hwrite]
      simp only [hwrite]
      cases check (total + (first :: rest).length) <;> rfl

theorem copyLoop_of_none {want : σ → ℕ → Option ℕ} {read : ℕ → StateM σ (Except ε (List δ))}
    {write : List δ → StateM σ (Except ε Unit)} {check : ℕ → Option ε} {rounds total : ℕ}
    {state : σ} (h : want state total = none) :
    copyLoop want read write check (rounds + 1) total state = (.ok total, state) := by
  rw [copyLoop]
  simp only [h]

/-- Two loops go together whose reads and writes do, if they want the same. -/
theorem Scripts.copyLoop {want : σ → ℕ → Option ℕ} {want' : ρ → ℕ → Option ℕ}
    {read : ℕ → StateM σ (Except ε (List δ))} {read' : ℕ → StateM ρ (Except ε (List δ))}
    {write : List δ → StateM σ (Except ε Unit)} {write' : List δ → StateM ρ (Except ε Unit)}
    (check : ℕ → Option ε)
    (hwant : ∀ state shown rest total, related state shown →
      want' (feed shown rest) total = want state total)
    (hread : ∀ state total len, want state total = some len →
      Scripts feed related (read len) (read' len))
    (hwrite : ∀ data, Scripts feed related (write data) (write' data)) (rounds total : ℕ) :
    Scripts feed related (Program.copyLoop want read write check rounds total)
      (Program.copyLoop want' read' write' check rounds total) := by
  induction rounds generalizing total with
  | zero => exact Scripts.pure _
  | succ rounds ih =>
    intro state shown hrelated
    cases hlen : want state total with
    | none =>
      refine ⟨[], shown, ?_, fun rest ↦ ?_⟩
      · rw [copyLoop_of_none hlen]
        exact hrelated
      · rw [copyLoop_of_none hlen,
          copyLoop_of_none ((hwant state shown _ total hrelated).trans hlen)]
        rfl
    | some len =>
      have hround : Scripts feed related
          (read len >>= afterRead write check (Program.copyLoop want read write check rounds) total)
          (read' len >>=
            afterRead write' check (Program.copyLoop want' read' write' check rounds) total) := by
        refine Scripts.bind (hread state total len hlen) fun result ↦ ?_
        rcases result with error | _ | ⟨first, rest⟩
        · exact Scripts.pure _
        · exact Scripts.pure _
        · refine Scripts.bind (hwrite (first :: rest)) fun written ↦ ?_
          cases written with
          | error error => exact Scripts.pure _
          | ok =>
            cases check (total + (first :: rest).length) with
            | some error => exact Scripts.pure _
            | none => exact ih _
      obtain ⟨script, after, hafter, hscripted⟩ := hround state shown hrelated
      refine ⟨script, after, ?_, fun rest ↦ ?_⟩
      · rw [copyLoop_of_some hlen]
        exact hafter
      · rw [copyLoop_of_some hlen,
          copyLoop_of_some ((hwant state shown _ total hrelated).trans hlen)]
        exact hscripted rest

end CopyLoop

/-! ### Runs -/

/-- Makes the calls in their order and returns their answers. -/
def answersTo (call : ι → StateM σ α) : List ι → StateM σ (List α)
  | [] => pure []
  | input :: inputs => do
    let answer ← call input
    let answers ← answersTo call inputs
    return answer :: answers

theorem answersTo_cons (call : ι → StateM σ α) (input : ι) (inputs : List ι) (state : σ) :
    answersTo call (input :: inputs) state =
      ((call input state).1 :: (answersTo call inputs (call input state).2).1,
        (answersTo call inputs (call input state).2).2) := rfl

/-- A run of calls goes together with a run of the calls that go together with them. -/
theorem Scripts.answersTo {call : ι → StateM σ α} {scripted : ι → StateM ρ α} (inputs : List ι)
    (h : ∀ input ∈ inputs, Scripts feed related (call input) (scripted input)) :
    Scripts feed related (Program.answersTo call inputs) (Program.answersTo scripted inputs) := by
  induction inputs with
  | nil => exact Scripts.pure []
  | cons input inputs ih =>
    refine Scripts.bind (h input List.mem_cons_self) fun answer ↦ ?_
    refine Scripts.bind (ih fun later hlater ↦ h later (List.mem_cons_of_mem input hlater)) ?_
    exact fun answers ↦ Scripts.pure (answer :: answers)

end LibSshpp.Program
