import LibSshpp.Posix.ShellWords

/-!
What the shell makes of a command line of words: the rules of the POSIX shell grammar for the
first word of a command and for the assignments in front of the command name. A word
is looked at with its quoting, since quoted bytes make neither a reserved word nor a name.
-/

set_option autoImplicit false
set_option relaxedAutoImplicit false

namespace LibSshpp.Posix.ShellWords

def reservedWords : List Bytes :=
  ["!", "\x7b", "\x7d", "case", "do", "done", "elif", "else", "esac", "fi", "for", "if", "in", "then",
    "until", "while"].map ascii

/-- What the grammar leaves to a shell: which other words it reserves (`function`, say), and
whether it takes a word for an assignment although what is in front of its first unquoted `=`
is no name. -/
structure Dialect where
  reserves : Bytes → Bool := fun _ ↦ false
  assigns : List (UInt8 × Bool) → Bool := fun _ ↦ false

def isDigit (byte : UInt8) : Bool := 0x30 ≤ byte && byte ≤ 0x39

def isNameStart (byte : UInt8) : Bool :=
  (0x41 ≤ byte && byte ≤ 0x5a) || (0x61 ≤ byte && byte ≤ 0x7a) || byte = 0x5f

/-- A name: letters, digits and underscores, the first one not a digit. -/
def isName (text : Bytes) : Bool :=
  text.head?.any isNameStart && text.all fun byte ↦ isNameStart byte || isDigit byte

namespace ShellWord

/-- What is in front of the first unquoted `=`, all of the word when there is none. -/
def target (word : ShellWord) : List (UInt8 × Bool) :=
  word.marks.takeWhile (· ≠ (0x3d, false))

/-- Whether the token is an `ASSIGNMENT_WORD` in front of a command name. -/
def isAssignment (dialect : Dialect) (word : ShellWord) : Bool :=
  word.marks.contains (0x3d, false) && word.target ≠ [] &&
    (word.target.all (!·.2) && isName (word.target.map Prod.fst) || dialect.assigns word.target)

/-- Whether the token is a reserved word as the first word of a command. -/
def isReserved (dialect : Dialect) (word : ShellWord) : Bool :=
  !word.quoted && (reservedWords.contains word.text || dialect.reserves word.text)

end ShellWord

/-- What a command line is: a simple command with its assignments and its words, the first of
them the command name; or something that a reserved word begins, a compound command or an error;
or not just words. -/
inductive ShellCommand
  | simple (assignments words : List Bytes)
  | reserved (word : Bytes)
  | other
  deriving DecidableEq, Repr

def commandOf (dialect : Dialect) : List ShellWord → ShellCommand
  | [] => .simple [] []
  | first :: rest =>
    if first.isReserved dialect then .reserved first.text
    else .simple (((first :: rest).takeWhile (·.isAssignment dialect)).map ShellWord.text)
      (((first :: rest).dropWhile (·.isAssignment dialect)).map ShellWord.text)

/-- The shell's parse of a command line. -/
def parseCommand (dialect : Dialect) (line : Bytes) : ShellCommand :=
  match readShell .plain none [] line with
  | .words tokens => commandOf dialect tokens
  | _ => .other

/-- The words of a line are those of a simple command without assignments exactly if the first
of them is nothing else. -/
theorem commandOf_eq_simple_iff (dialect : Dialect) (first : ShellWord) (rest : List ShellWord) :
    commandOf dialect (first :: rest) = .simple [] ((first :: rest).map ShellWord.text) ↔
      first.isReserved dialect = false ∧ first.isAssignment dialect = false := by
  cases hreserved : first.isReserved dialect with
  | true =>
    rw [commandOf, if_pos hreserved]
    exact ⟨nofun, fun h ↦ Bool.noConfusion h.1⟩
  | false =>
    rw [commandOf, hreserved, if_neg Bool.false_ne_true]
    cases hassignment : first.isAssignment dialect with
    | true =>
      rw [List.takeWhile_cons_of_pos hassignment]
      exact ⟨fun h ↦ (nomatch (ShellCommand.simple.inj h).1), fun h ↦ Bool.noConfusion h.2⟩
    | false =>
      have hnot : ¬ first.isAssignment dialect = true := ne_true_of_eq_false hassignment
      rw [List.takeWhile_cons_of_neg hnot, List.dropWhile_cons_of_neg hnot]
      exact ⟨fun _ ↦ ⟨rfl, rfl⟩, fun _ ↦ rfl⟩

end LibSshpp.Posix.ShellWords
