import LibSshpp.Exec.ShellQuote
import LibSshpp.Posix.ShellGrammar

/-!
Which command the remote shell runs for `Exec::try_run(argv)`. The first argument
is the command name unless the shell takes it for an assignment or for a reserved word, and
`shell_quote` looks at the bytes of an argument, not at where it stands.
-/

set_option autoImplicit false
set_option relaxedAutoImplicit false

namespace LibSshpp.Exec

open Posix.ShellWords

/-- The argument reads `NAME=value`, or the shell takes it so. -/
def AssignsVariable (dialect : Dialect) (arg : Bytes) : Prop :=
  0x3d ∈ arg ∧ arg.takeWhile (· ≠ 0x3d) ≠ [] ∧
    (isName (arg.takeWhile (· ≠ 0x3d)) ∨
      dialect.assigns ((arg.takeWhile (· ≠ 0x3d)).map fun byte ↦ (byte, false)))

/-- The argument is a reserved word of the shell. -/
def ReservedWord (dialect : Dialect) (arg : Bytes) : Prop :=
  arg ∈ reservedWords ∨ dialect.reserves arg

theorem isReserved_argumentWord (dialect : Dialect) (arg : Bytes) :
    (argumentWord arg).isReserved dialect ↔ LeftAlone arg ∧ ReservedWord dialect arg := by
  rw [ShellWord.isReserved, quoted_argumentWord, text_argumentWord, Bool.not_not,
    Bool.and_eq_true, decide_eq_true_iff, Bool.or_eq_true, List.contains_iff_mem]
  rfl

/-- In an argument that is left alone every byte is unquoted. -/
theorem target_argumentWord {arg : Bytes} (h : LeftAlone arg) :
    (argumentWord arg).target = (arg.takeWhile (· ≠ 0x3d)).map fun byte ↦ (byte, false) := by
  rw [ShellWord.target, marks_argumentWord, decide_eq_true h, List.takeWhile_map]
  congr 2
  funext byte
  simp

theorem isAssignment_argumentWord (dialect : Dialect) (arg : Bytes) :
    (argumentWord arg).isAssignment dialect ↔ LeftAlone arg ∧ AssignsVariable dialect arg := by
  by_cases h : LeftAlone arg
  · have hequals : (0x3d, false) ∈ (argumentWord arg).marks ↔ 0x3d ∈ arg := by
      rw [marks_argumentWord, decide_eq_true h]
      simp
    have htarget := target_argumentWord h
    have hname : (argumentWord arg).target.map Prod.fst = arg.takeWhile (· ≠ 0x3d) := by
      rw [htarget, List.map_map]
      exact List.map_id _
    have hunquoted : ((argumentWord arg).target.all (!·.2)) = true := by
      rw [htarget]
      simp
    rw [ShellWord.isAssignment, hunquoted, hname, htarget]
    simp only [Bool.and_eq_true, List.contains_iff_mem, hequals, decide_eq_true_iff, ne_eq,
      List.map_eq_nil_iff, Bool.true_and, Bool.or_eq_true, AssignsVariable, and_assoc, h, true_and]
  · have hequals : (0x3d, false) ∉ (argumentWord arg).marks := by
      rw [marks_argumentWord, decide_eq_false h]
      simp
    simp [ShellWord.isAssignment, hequals, h]

/-- The shell runs the first argument with the others as its arguments exactly if the first
argument is quoted or means nothing else to the shell. Assumes: no argument contains a NUL
byte. -/
theorem runs_argv_iff (dialect : Dialect) (first : Bytes) (rest : List Bytes)
    (h : ∀ arg ∈ first :: rest, 0 ∉ arg) :
    parseCommand dialect (execRequest (first :: rest)) = .simple [] (first :: rest) ↔
      ¬ LeftAlone first ∨ ¬ ReservedWord dialect first ∧ ¬ AssignsVariable dialect first := by
  have hwords : (argumentWord first :: rest.map argumentWord).map ShellWord.text =
      first :: rest := by
    simp [Function.comp_def]
  have hsimple := commandOf_eq_simple_iff dialect (argumentWord first) (rest.map argumentWord)
  rw [hwords] at hsimple
  rw [parseCommand, readShell_execRequest h, List.map_cons, hsimple, ← Bool.not_eq_true,
    ← Bool.not_eq_true, isReserved_argumentWord, isAssignment_argumentWord]
  tauto

theorem runs_argv_iff_quoted :
    parseCommand {} (execRequest [ascii "PATH=/tmp dir", ascii "A=b"]) =
        .simple [] [ascii "PATH=/tmp dir", ascii "A=b"] ↔
      ¬ LeftAlone (ascii "PATH=/tmp dir") ∨ ¬ ReservedWord {} (ascii "PATH=/tmp dir") ∧
        ¬ AssignsVariable {} (ascii "PATH=/tmp dir") :=
  runs_argv_iff {} _ _ (by decide)

/-- A command after an assignment, and one whose name the shell reserves. -/
theorem assignment_taken_from_argv :
    parseCommand {} (execRequest [ascii "PATH=/tmp", ascii "id"]) =
        .simple [ascii "PATH=/tmp"] [ascii "id"] ∧
      parseCommand {} (execRequest [ascii "while", ascii "id"]) = .reserved (ascii "while") ∧
      ∀ first ∈ [ascii "PATH=/tmp", ascii "while"],
        parseCommand {} (execRequest [first, ascii "id"]) ≠ .simple [] [first, ascii "id"] := by
  decide +kernel

end LibSshpp.Exec
