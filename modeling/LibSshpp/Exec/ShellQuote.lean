import LibSshpp.Posix.ShellWords
import Mathlib.Data.FinEnum
import Mathlib.Data.List.Induction

/-!
The command text of `Exec::try_run(argv)`. Each argument goes through
`shell_quote`, which leaves it alone when every byte is in a fixed safe set and
otherwise wraps it in single quotes, and the results are joined by blanks. The
text reaches the remote shell as a C string.
-/

set_option autoImplicit false
set_option relaxedAutoImplicit false

namespace LibSshpp.Exec

open Posix.ShellWords

/-- The bytes `shell_quote` passes through unquoted. -/
def shellQuoteSafe : Bytes :=
  ascii "ABCDEFGHIJKLMNOPQRSTUVWXYZabcdefghijklmnopqrstuvwxyz0123456789_-./,:@%^+="

/-- One byte of an argument inside the single quotes: a quote is spliced as `'\''`. -/
def quotedByte (byte : UInt8) : Bytes :=
  if byte = 0x27 then ascii "'\\''" else [byte]

def shellQuote (arg : Bytes) : Bytes :=
  if arg ≠ [] ∧ ∀ byte ∈ arg, byte ∈ shellQuoteSafe then arg
  else [0x27] ++ arg.flatMap quotedByte ++ [0x27]

/-- One round of the loop of `Exec::try_run(argv)` over the arguments. -/
def appendArgument (command arg : Bytes) : Bytes :=
  (if command = [] then command else command ++ [0x20]) ++ shellQuote arg

def argvCommand (argv : List Bytes) : Bytes :=
  argv.foldl appendArgument []

/-- The command line that `ssh_channel_request_exec` receives from
`Exec::try_run(argv)`, as the C string of the built text. -/
def execRequest (argv : List Bytes) : Bytes :=
  cString (argvCommand argv)

/-! ### Reading one argument back -/

theorem isLiteral_of_mem_shellQuoteSafe : ∀ byte ∈ shellQuoteSafe, isLiteral byte := by
  have hall : shellQuoteSafe.all isLiteral = true := by decide +kernel
  exact List.all_eq_true.mp hall

theorem shellQuote_ne_nil (arg : Bytes) : shellQuote arg ≠ [] := by
  unfold shellQuote
  split_ifs with h
  · exact h.1
  · simp

/-- The body of a quoted argument, read inside single quotes up to the closing
one, adds exactly the argument to the word in progress. -/
theorem readShell_quotedBody (arg : Bytes) (current : ShellWord) (done : List ShellWord)
    (rest : Bytes) :
    readShell .single (some current) done (arg.flatMap quotedByte ++ 0x27 :: rest) =
      readShell .plain (some (current.extend arg true)) done rest := by
  induction arg generalizing current with
  | nil =>
    rw [List.flatMap_nil, List.nil_append, readShell, if_pos rfl]
    rfl
  | cons byte arg ih =>
    have hext : current.extend (byte :: arg) true = (current.push byte true).extend arg true := rfl
    rw [hext, ← ih]
    by_cases hquote : byte = 0x27
    · rw [← ShellWord.quote_push, hquote]
      simp [quotedByte, ascii, readShell, isBlank, startsOperator, startsExpansion]
    · simp [quotedByte, hquote, readShell]

/-- `shell_quote` leaves the argument alone. -/
def LeftAlone (arg : Bytes) : Prop := arg ≠ [] ∧ ∀ byte ∈ arg, byte ∈ shellQuoteSafe

instance (arg : Bytes) : Decidable (LeftAlone arg) := inferInstanceAs (Decidable (_ ∧ _))

/-- The word the shell makes of an argument. -/
def argumentWord (arg : Bytes) : ShellWord :=
  if LeftAlone arg then ShellWord.extend {} arg false
  else (ShellWord.quote {}).extend arg true

@[simp] theorem text_argumentWord (arg : Bytes) : (argumentWord arg).text = arg := by
  unfold argumentWord
  split_ifs
  · exact ShellWord.text_extend {} arg false
  · exact ShellWord.text_extend (ShellWord.quote {}) arg true

theorem marks_argumentWord (arg : Bytes) :
    (argumentWord arg).marks = arg.map fun byte ↦ (byte, !decide (LeftAlone arg)) := by
  unfold argumentWord
  split_ifs with h
  · rw [ShellWord.marks_extend, decide_eq_true h]
    rfl
  · rw [ShellWord.marks_extend, decide_eq_false h]
    rfl

theorem quoted_argumentWord (arg : Bytes) :
    (argumentWord arg).quoted = !decide (LeftAlone arg) := by
  unfold argumentWord
  split_ifs with h
  · rw [ShellWord.quoted_extend, decide_eq_true h]
    rfl
  · rw [ShellWord.quoted_extend, decide_eq_false h]
    rfl

/-- A quoted argument, read where a word may start, is one word with the
argument's bytes. -/
theorem readShell_shellQuote (arg : Bytes) (done : List ShellWord) (rest : Bytes) :
    readShell .plain none done (shellQuote arg ++ rest) =
      readShell .plain (some (argumentWord arg)) done rest := by
  by_cases h : LeftAlone arg
  · have hquote : shellQuote arg = arg := if_pos h
    have hword : argumentWord arg = ShellWord.extend {} arg false := if_pos h
    obtain ⟨byte, tail, rfl⟩ := List.exists_cons_of_ne_nil h.1
    have hliteral : ∀ b ∈ byte :: tail, isLiteral b := fun b hb ↦
      isLiteral_of_mem_shellQuoteSafe b (h.2 b hb)
    rw [hquote, hword, List.cons_append,
      readShell_plain_literal (hliteral byte List.mem_cons_self),
      readShell_literals fun b hb ↦ hliteral b (List.mem_cons_of_mem _ hb)]
    rfl
  · have hquote : shellQuote arg = [0x27] ++ arg.flatMap quotedByte ++ [0x27] := if_neg h
    have hword : argumentWord arg = (ShellWord.quote {}).extend arg true := if_neg h
    rw [hquote, hword, ← readShell_quotedBody]
    simp [readShell, isBlank, startsOperator, startsExpansion, ascii]

/-! ### The whole command -/

theorem argvCommand_concat (argv : List Bytes) (arg : Bytes) :
    argvCommand (argv ++ [arg]) = appendArgument (argvCommand argv) arg := by
  simp [argvCommand]

theorem argvCommand_eq_nil_iff (argv : List Bytes) : argvCommand argv = [] ↔ argv = [] := by
  induction argv using List.reverseRecOn with
  | nil => simp [argvCommand]
  | append_singleton argv arg _ =>
    rw [argvCommand_concat, appendArgument]
    simp [shellQuote_ne_nil]

/-- Reading the command built so far leaves the shell in the last argument's
word, with all earlier arguments delimited. The induction is on the arguments in
the order in which the loop appends them. -/
theorem readShell_argvCommand (argv : List Bytes) (arg rest : Bytes) :
    readShell .plain none [] (argvCommand (argv ++ [arg]) ++ rest) =
      readShell .plain (some (argumentWord arg)) (argv.map argumentWord) rest := by
  induction argv using List.reverseRecOn generalizing arg rest with
  | nil => exact readShell_shellQuote arg [] rest
  | append_singleton argv previous ih =>
    have hne : argvCommand (argv ++ [previous]) ≠ [] := by
      simp [argvCommand_eq_nil_iff]
    rw [argvCommand_concat, appendArgument, if_neg hne]
    simp only [List.append_assoc, List.cons_append, List.nil_append]
    have hblank : readShell .plain (some (argumentWord previous)) (argv.map argumentWord)
        (0x20 :: (shellQuote arg ++ rest)) =
          readShell .plain none (argv.map argumentWord ++ [argumentWord previous])
            (shellQuote arg ++ rest) := by
      simp [readShell, isBlank]
    rw [ih, hblank, readShell_shellQuote, List.map_append]
    rfl

theorem zero_notMem_shellQuote {arg : Bytes} (h : 0 ∉ arg) : 0 ∉ shellQuote arg := by
  unfold shellQuote
  split_ifs
  · exact h
  · simp only [List.mem_append, List.mem_singleton, List.mem_flatMap, not_or, not_exists, not_and]
    refine ⟨⟨by decide, fun byte hbyte hmem ↦ ?_⟩, by decide⟩
    unfold quotedByte at hmem
    split_ifs at hmem
    · exact absurd hmem (by decide)
    · exact h (List.mem_singleton.mp hmem ▸ hbyte)

theorem zero_notMem_argvCommand {argv : List Bytes} (h : ∀ arg ∈ argv, 0 ∉ arg) :
    0 ∉ argvCommand argv := by
  induction argv using List.reverseRecOn with
  | nil => simp [argvCommand]
  | append_singleton argv arg ih =>
    have hargv := ih fun a ha ↦ h a (List.mem_append_left _ ha)
    have harg := zero_notMem_shellQuote (h arg (by simp))
    rw [argvCommand_concat, appendArgument]
    split_ifs <;> simp [hargv, harg]

/-- The words of the command, each with its quoting. Assumes: no argument contains a
NUL byte. -/
theorem readShell_execRequest {argv : List Bytes} (h : ∀ arg ∈ argv, 0 ∉ arg) :
    readShell .plain none [] (execRequest argv) = .words (argv.map argumentWord) := by
  rw [execRequest, cString_eq_self (zero_notMem_argvCommand h)]
  rcases List.eq_nil_or_concat argv with rfl | ⟨init, arg, rfl⟩
  · rfl
  · have hread := readShell_argvCommand init arg []
    rw [List.append_nil] at hread
    rw [List.concat_eq_append, hread, readShell, List.map_append]
    rfl

/-- The remote shell reads the command of `Exec::try_run(argv)` as exactly the
words of `argv`, in order, and recognises no operator, comment or expansion in
it. Assumes: no argument contains a NUL byte. -/
theorem shellWords_execRequest (argv : List Bytes) (h : ∀ arg ∈ argv, 0 ∉ arg) :
    shellWords (execRequest argv) = some argv := by
  rw [shellWords, readShell_execRequest h]
  simp [Function.comp_def]

theorem shellWords_execRequest_injection :
    shellWords (execRequest [ascii "echo", [], ascii "it's $(rm -rf /)\n*"]) =
      some [ascii "echo", [], ascii "it's $(rm -rf /)\n*"] :=
  shellWords_execRequest _ (by decide)

end LibSshpp.Exec
