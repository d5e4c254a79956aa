import LibSshpp.Foundation.Bytes

/-!
Token recognition and quote removal of the POSIX shell command language, for
command lines made of words only. A byte the shell would read as anything but
part of a word ends the reading: an operator, the start of a comment, or a
trigger of an expansion. Each byte of a word remembers whether it was quoted,
because assignment and reserved-word recognition look at unquoted bytes only.
-/

set_option autoImplicit false
set_option relaxedAutoImplicit false

namespace LibSshpp.Posix.ShellWords

/-- A word of the command line: its bytes after quote removal, each with whether
it was quoted, and whether any quoting occurred in it. -/
structure ShellWord where
  marks : List (UInt8 × Bool) := []
  quoted : Bool := false
  deriving DecidableEq, Repr

def ShellWord.text (word : ShellWord) : Bytes := word.marks.map Prod.fst

def ShellWord.push (word : ShellWord) (byte : UInt8) (quoted : Bool) : ShellWord :=
  { marks := word.marks ++ [(byte, quoted)], quoted := word.quoted || quoted }

def ShellWord.quote (word : ShellWord) : ShellWord := { word with quoted := true }

inductive ShellReading
  | words (tokens : List ShellWord)
  | operator
  | comment
  | expansion
  | incomplete
  deriving DecidableEq, Repr

/-- The quoting in force at a point of the command line. -/
inductive Quoting
  | plain
  | single
  | double
  | escape
  | escapeInDouble
  deriving DecidableEq, Repr

def isBlank (byte : UInt8) : Bool := byte = 0x20 || byte = 0x09

/-- The control operators and redirections, all of which start with one of these. -/
def startsOperator (byte : UInt8) : Bool := ascii "|&;<>()\n" |>.contains byte

/-- Parameter, command and arithmetic expansion, pathname patterns and tildes. -/
def startsExpansion (byte : UInt8) : Bool := ascii "$`*?[~" |>.contains byte

def expandsInDouble (byte : UInt8) : Bool := ascii "$`" |>.contains byte

def escapableInDouble (byte : UInt8) : Bool := ascii "$`\"\\" |>.contains byte

/-- The shell's reading of a command line, from a quoting state, the word in
progress if one has begun, and the words already delimited. -/
def readShell : Quoting → Option ShellWord → List ShellWord → Bytes → ShellReading
  | .plain, current, done, [] => .words (done ++ current.toList)
  | _, _, _, [] => .incomplete
  | .plain, current, done, byte :: rest =>
    if isBlank byte then readShell .plain none (done ++ current.toList) rest
    else if startsOperator byte then .operator
    else if startsExpansion byte then .expansion
    else if byte = 0x27 then readShell .single (some (current.getD {}).quote) done rest
    else if byte = 0x22 then readShell .double (some (current.getD {}).quote) done rest
    else if byte = 0x5c then readShell .escape current done rest
    else if byte = 0x23 ∧ current = none then .comment
    else readShell .plain (some ((current.getD {}).push byte false)) done rest
  | .single, current, done, byte :: rest =>
    if byte = 0x27 then readShell .plain current done rest
    else readShell .single (some ((current.getD {}).push byte true)) done rest
  | .double, current, done, byte :: rest =>
    if byte = 0x22 then readShell .plain current done rest
    else if expandsInDouble byte then .expansion
    else if byte = 0x5c then readShell .escapeInDouble current done rest
    else readShell .double (some ((current.getD {}).push byte true)) done rest
  | .escape, current, done, byte :: rest =>
    if byte = 0x0a then readShell .plain current done rest
    else readShell .plain (some ((current.getD {}).push byte true)) done rest
  | .escapeInDouble, current, done, byte :: rest =>
    if byte = 0x0a then readShell .double current done rest
    else if escapableInDouble byte then
      readShell .double (some ((current.getD {}).push byte true)) done rest
    else
      readShell .double (some (((current.getD {}).push 0x5c true).push byte true)) done rest

/-- The words a command line consists of, after quote removal, when the shell
recognises nothing else in it. -/
def shellWords (line : Bytes) : Option (List Bytes) :=
  match readShell .plain none [] line with
  | .words tokens => some (tokens.map ShellWord.text)
  | _ => none

/-! ### Reading runs of bytes -/

/-- The word with more bytes behind it. -/
def ShellWord.extend (word : ShellWord) (run : Bytes) (quoted : Bool) : ShellWord :=
  run.foldl (fun word byte ↦ word.push byte quoted) word

@[simp] theorem ShellWord.text_quote (word : ShellWord) : word.quote.text = word.text := rfl

theorem ShellWord.quote_push (word : ShellWord) (byte : UInt8) :
    (word.push byte true).quote = word.push byte true := by
  simp [ShellWord.quote, ShellWord.push]

theorem ShellWord.marks_extend (word : ShellWord) (run : Bytes) (quoted : Bool) :
    (word.extend run quoted).marks = word.marks ++ run.map fun byte ↦ (byte, quoted) := by
  induction run generalizing word with
  | nil => exact (List.append_nil _).symm
  | cons byte run ih =>
    rw [ShellWord.extend, List.foldl_cons, ← ShellWord.extend, ih]
    exact List.append_assoc word.marks [(byte, quoted)] _

theorem ShellWord.text_extend (word : ShellWord) (run : Bytes) (quoted : Bool) :
    (word.extend run quoted).text = word.text ++ run := by
  rw [ShellWord.text, ShellWord.marks_extend, List.map_append, List.map_map]
  exact congrArg (word.text ++ ·) (List.map_id run)

/-- Quoting is remembered. -/
theorem ShellWord.quoted_extend (word : ShellWord) (run : Bytes) (quoted : Bool) :
    (word.extend run quoted).quoted = (word.quoted || quoted && !run.isEmpty) := by
  induction run generalizing word with
  | nil => simp [ShellWord.extend]
  | cons byte run ih =>
    rw [ShellWord.extend, List.foldl_cons, ← ShellWord.extend, ih]
    cases hword : word.quoted <;> cases quoted <;> simp [ShellWord.push, hword]

/-- A byte that is literal wherever it stands unquoted. -/
def isLiteral (byte : UInt8) : Bool :=
  !isBlank byte && !startsOperator byte && !startsExpansion byte &&
    !(ascii "'\"\\#" |>.contains byte)

theorem readShell_plain_literal {byte : UInt8} (h : isLiteral byte) (current : Option ShellWord)
    (done : List ShellWord) (rest : Bytes) :
    readShell .plain current done (byte :: rest) =
      readShell .plain (some ((current.getD {}).push byte false)) done rest := by
  simp only [isLiteral, Bool.and_eq_true, Bool.not_eq_true', List.contains_eq_mem] at h
  obtain ⟨⟨⟨hblank, hoperator⟩, hexpansion⟩, hquote⟩ := h
  have hnot : byte ≠ 0x27 ∧ byte ≠ 0x22 ∧ byte ≠ 0x5c ∧ byte ≠ 0x23 := by
    simpa [ascii] using hquote
  simp [readShell, hblank, hoperator, hexpansion, hnot]

/-- Unquoted literal bytes extend the word in progress by themselves. -/
theorem readShell_literals {run : Bytes} (h : ∀ byte ∈ run, isLiteral byte) (current : ShellWord)
    (done : List ShellWord) (rest : Bytes) :
    readShell .plain (some current) done (run ++ rest) =
      readShell .plain (some (current.extend run false)) done rest := by
  induction run generalizing current with
  | nil => rfl
  | cons byte run ih =>
    have hbyte := h byte List.mem_cons_self
    rw [List.cons_append, readShell_plain_literal hbyte, Option.getD_some,
      ih (fun b hb ↦ h b (List.mem_cons_of_mem _ hb))]
    rfl

end LibSshpp.Posix.ShellWords
