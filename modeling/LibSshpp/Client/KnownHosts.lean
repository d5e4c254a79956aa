import LibSshpp.Client.AuthorizedKeys
import LibSshpp.Posix.FileStream

/-!
`KnownHosts::add`, which appends a line to the user's `known_hosts` file. It looks neither at
how the file ends nor at what the parts of the line contain, and it does not ask the stream
whether the writes arrived.
-/

set_option autoImplicit false
set_option relaxedAutoImplicit false

namespace LibSshpp.Client

open Posix

structure KnownHosts where
  userFile : LocalFile

/-- The host as its line has it. -/
def hostsField (host : Bytes) (port : UInt16) : Bytes :=
  if port = 22 then host else ascii "[" ++ host ++ ascii "]:" ++ decimal port.toNat

namespace KnownHosts

/-- What the user's file contains; a file that is not there is empty. -/
def text (files : KnownHosts) : Bytes := files.userFile.content.getD []

/-- The writes of `add`. -/
def writeEntry (out : OutStream) (hosts keyType b64 comment : Bytes) : OutStream :=
  let out := ((((out.write hosts).write (ascii " ")).write keyType).write (ascii " ")).write b64
  let out := if comment = [] then out else (out.write (ascii " ")).write comment
  out.write (ascii "\n")

def add {K : Type} (pki : Pki K) (files : KnownHosts) (host : Bytes) (port : UInt16) (key : Key K)
    (comment : Bytes) : Result Unit × KnownHosts :=
  match key.toPublicBase64 pki with
  | .error info => (.error info, files)
  | .ok b64 =>
    if files.userFile.canOpen then
      let out := writeEntry { content := files.text, room := files.userFile.ioLimit }
        (hostsField host port) (key.typeName pki) b64 comment
      (.ok (), { userFile := { files.userFile with content := some out.content } })
    else
      (.error
        { code := .ssh .knownHostsIoError
          message := "failed to open " ++ files.userFile.path
          operation := "KnownHosts::add" }, files)

end KnownHosts

/-! ### Lines and records -/

abbrev newline : UInt8 := 0x0a

def isFieldSep (byte : UInt8) : Bool := byte == 0x20 || byte == 0x09

structure Record where
  hosts : Bytes
  keyType : Bytes
  key : Bytes
  deriving DecidableEq, Repr

/-- The record of a line. A line whose first field begins with `#` is a comment, and one whose
first field begins with `@` has a marker and is no plain record. -/
def recordOf (line : Bytes) : Option Record :=
  let hosts := nextField isFieldSep line
  let keyType := nextField isFieldSep hosts.2
  let key := nextField isFieldSep keyType.2
  if key.1 = [] ∨ hosts.1.head? = some 0x23 ∨ hosts.1.head? = some 0x40 then none
  else some { hosts := hosts.1, keyType := keyType.1, key := key.1 }

def Record.text (record : Record) : Bytes :=
  record.hosts ++ 0x20 :: (record.keyType ++ 0x20 :: record.key)

/-- A text that a line can have as its host field. -/
structure IsHosts (hosts : Bytes) : Prop extends IsField isFieldSep hosts where
  no_newline : newline ∉ hosts
  no_comment : hosts.head? ≠ some 0x23
  no_marker : hosts.head? ≠ some 0x40

theorem IsWord.isField {text : Bytes} (h : IsWord text) : IsField isFieldSep text where
  ne_nil := h.ne_nil
  no_sep := by
    intro byte hbyte
    have hblank := h.no_sep byte hbyte
    by_contra hsep
    rw [Bool.not_eq_false, isFieldSep, Bool.or_eq_true, beq_iff_eq, beq_iff_eq] at hsep
    rcases hsep with rfl | rfl <;> exact nomatch hblank

theorem IsWord.no_newline {text : Bytes} (h : IsWord text) : newline ∉ text :=
  fun hmem ↦ nomatch h.no_sep newline hmem

theorem sepFirst_space (text : Bytes) : SepFirst isFieldSep (0x20 :: text) := by
  intro byte hbyte
  rw [← Option.some.inj hbyte]
  rfl

/-- The parts of a record that is written as a line are read back. -/
theorem recordOf_append {record : Record} {behind : Bytes} (hhosts : IsHosts record.hosts)
    (htype : IsWord record.keyType) (hkey : IsWord record.key)
    (hbehind : SepFirst isFieldSep behind) :
    recordOf (record.text ++ behind) = some record := by
  have htext : record.text ++ behind =
      record.hosts ++ 0x20 :: (record.keyType ++ 0x20 :: (record.key ++ behind)) := by
    simp [Record.text]
  unfold recordOf
  rw [htext, nextField_append hhosts.toIsField (sepFirst_space _)]
  dsimp only
  rw [nextField_cons rfl, nextField_append htype.isField (sepFirst_space _)]
  dsimp only
  rw [nextField_cons rfl, nextField_append hkey.isField hbehind]
  refine if_neg ?_
  rw [not_or, not_or]
  exact ⟨hkey.ne_nil, hhosts.no_comment, hhosts.no_marker⟩

theorem recordOf_eq_some {line : Bytes} {record : Record} (h : recordOf line = some record) :
    (nextField isFieldSep line).1 = record.hosts ∧
      (nextField isFieldSep (nextField isFieldSep line).2).1 = record.keyType ∧
      (nextField isFieldSep (nextField isFieldSep (nextField isFieldSep line).2).2).1 =
        record.key ∧
      record.key ≠ [] ∧ record.hosts.head? ≠ some 0x23 ∧ record.hosts.head? ≠ some 0x40 := by
  obtain ⟨hcondition, hrecord⟩ := Option.ite_none_left_eq_some.mp h
  rw [not_or, not_or] at hcondition
  rw [← Option.some.inj hrecord]
  exact ⟨rfl, rfl, rfl, hcondition⟩

/-- A line with a record is at least as long as the text of the record. -/
theorem length_le_of_recordOf {line : Bytes} {record : Record} (h : recordOf line = some record) :
    record.text.length ≤ line.length := by
  obtain ⟨hhosts, htype, hkey, hne, -⟩ := recordOf_eq_some h
  rw [← hkey] at hne
  have hhostsLength : (nextField isFieldSep line).1.length + (nextField isFieldSep line).2.length ≤
      line.length := nextField_length line
  have htypeLength := nextField_length_lt (nextField_sepFirst line) (nextField_ne_nil hne)
  have hkeyLength := nextField_length_lt (nextField_sepFirst _) hne
  rw [hhosts] at hhostsLength
  rw [htype] at htypeLength
  rw [hkey] at hkeyLength
  rw [Record.text, List.length_append, List.length_cons, List.length_append, List.length_cons]
  omega

theorem isHosts_of_recordOf {line : Bytes} {record : Record} (hline : newline ∉ line)
    (h : recordOf line = some record) : IsHosts record.hosts := by
  obtain ⟨hhosts, -, hkey, hne, hcomment, hmarker⟩ := recordOf_eq_some h
  rw [← hkey] at hne
  have hfield : IsField isFieldSep record.hosts := by
    rw [← hhosts]
    exact ⟨nextField_ne_nil (nextField_ne_nil hne), nextField_no_sep line⟩
  refine ⟨hfield, fun hmem ↦ ?_, hcomment, hmarker⟩
  rw [← hhosts] at hmem
  exact hline (mem_of_mem_nextField hmem)

/-! ### One line behind the others -/

/-- The file has its lines and one more, which has the record. -/
def AddsRecord (before after : Bytes) (record : Record) : Prop :=
  ∃ line, linesOf newline after = linesOf newline before ++ [line] ∧
    recordOf line = some record

/-- What is written behind the file is one line with the record. -/
def IsRecordLine (written : Bytes) (record : Record) : Prop :=
  ∃ line, newline ∉ line ∧ (written = line ∨ written = line ++ [newline]) ∧
    recordOf line = some record

theorem ne_nil_of_recordOf {line : Bytes} {record : Record} (h : recordOf line = some record) :
    line ≠ [] := by
  rintro rfl
  exact nomatch h

theorem linesOf_of_isRecordLine {written : Bytes} {record : Record}
    (h : IsRecordLine written record) :
    ∃ line, linesOf newline written = [line] ∧ recordOf line = some record := by
  obtain ⟨line, hline, rfl | rfl, hrecord⟩ := h
  · exact ⟨_, linesOf_of_notMem hline (ne_nil_of_recordOf hrecord), hrecord⟩
  · exact ⟨line, linesOf_concat hline, hrecord⟩

/-- A record is added exactly if the file ended its last line and what is written is one line
with the record; that the text begins like the record is all that matters of it. -/
theorem addsRecord_iff {before written : Bytes} {record : Record}
    (hwritten : written.head? = some newline → newline ∈ record.hosts) :
    AddsRecord before (before ++ written) record ↔
      Terminated newline before ∧ IsRecordLine written record := by
  constructor
  · rintro ⟨line, hlines, hrecord⟩
    have hended : Terminated newline before := by
      by_contra hopen
      have hne : written ≠ [] := by
        rintro rfl
        rw [List.append_nil] at hlines
        simpa using congrArg List.length hlines
      -- a newline that ends the last line would be in the host field of the record
      have hhosts := hwritten (head?_of_linesOf_append hne hopen hlines)
      have hmem : line ∈ linesOf newline (before ++ written) := by
        rw [hlines]
        exact List.mem_append_right _ List.mem_cons_self
      have hline := notMem_of_mem_linesOf hmem
      exact (isHosts_of_recordOf hline hrecord).no_newline hhosts
    rw [linesOf_append hended, List.append_cancel_left_eq] at hlines
    obtain ⟨hline, htext⟩ := eq_of_linesOf_singleton hlines
    exact ⟨hended, line, hline, htext, hrecord⟩
  · rintro ⟨hended, hwritten⟩
    obtain ⟨line, hline, hrecord⟩ := linesOf_of_isRecordLine hwritten
    exact ⟨line, by rw [linesOf_append hended, hline], hrecord⟩

/-! ### What `add` writes -/

/-- The comment of an entry, with the newline that ends the entry. -/
def endOfEntry (comment : Bytes) : Bytes :=
  (if comment = [] then [] else 0x20 :: comment) ++ [newline]

/-- What the file takes of an entry is one line with the record of the entry: its host field is
one, there is room for the record, and the comment does not bring a newline that is followed
by something. -/
structure FitsLine (room : Option ℕ) (record : Record) (comment : Bytes) : Prop where
  hosts : IsHosts record.hosts
  fits : Within room record.text.length
  one_line : newline ∉ (upTo room (record.text ++ endOfEntry comment)).dropLast

theorem no_newline_record {record : Record} (hhosts : IsHosts record.hosts)
    (htype : IsWord record.keyType) (hkey : IsWord record.key) : newline ∉ record.text := by
  rw [Record.text, List.mem_append, List.mem_cons, List.mem_append, List.mem_cons]
  rintro (h | h | h | h | h)
  · exact hhosts.no_newline h
  · exact nomatch h
  · exact htype.no_newline h
  · exact nomatch h
  · exact hkey.no_newline h

/-- What is behind the record in its line begins with the blank before the comment. -/
theorem sepFirst_of_isPrefix {behind comment : Bytes} (hinitial : behind <+: endOfEntry comment)
    (hbehind : newline ∉ behind) : SepFirst isFieldSep behind := by
  intro byte hbyte
  obtain ⟨rest, rfl⟩ := List.head?_eq_some_iff.mp hbyte
  obtain ⟨more, hmore⟩ := hinitial
  by_cases hcomment : comment = []
  · rw [endOfEntry, if_pos hcomment] at hmore
    rw [(List.cons.inj hmore).1] at hbehind
    exact absurd List.mem_cons_self hbehind
  · rw [endOfEntry, if_neg hcomment] at hmore
    rw [(List.cons.inj hmore).1]
    rfl

theorem isRecordLine_append {record : Record} {tail comment : Bytes}
    (hhosts : IsHosts record.hosts) (htype : IsWord record.keyType) (hkey : IsWord record.key)
    (htail : tail <+: endOfEntry comment) (hline : newline ∉ (record.text ++ tail).dropLast) :
    IsRecordLine (record.text ++ tail) record := by
  have hrecord := no_newline_record hhosts htype hkey
  have hread {behind : Bytes} (hinitial : behind <+: endOfEntry comment)
      (hbehind : newline ∉ behind) :
      newline ∉ record.text ++ behind ∧ recordOf (record.text ++ behind) = some record := by
    rw [List.mem_append, not_or]
    exact ⟨⟨hrecord, hbehind⟩,
      recordOf_append hhosts htype hkey (sepFirst_of_isPrefix hinitial hbehind)⟩
  rcases List.eq_nil_or_concat tail with rfl | ⟨front, last, rfl⟩
  · obtain ⟨hnewline, hrecordOf⟩ := hread htail List.not_mem_nil
    exact ⟨_, hnewline, .inl rfl, hrecordOf⟩
  · rw [List.concat_eq_append] at htail hline ⊢
    rw [← List.append_assoc, List.dropLast_concat, List.mem_append, not_or] at hline
    by_cases hlast : last = newline
    · obtain ⟨hnewline, hrecordOf⟩ := hread ((List.prefix_append front _).trans htail) hline.2
      refine ⟨_, hnewline, .inr ?_, hrecordOf⟩
      rw [hlast, List.append_assoc]
    · have hbehind : newline ∉ front ++ [last] := by
        rw [List.mem_append, not_or, List.mem_singleton]
        exact ⟨hline.2, Ne.symm hlast⟩
      obtain ⟨hnewline, hrecordOf⟩ := hread htail hbehind
      exact ⟨_, hnewline, .inl rfl, hrecordOf⟩

theorem isRecordLine_upTo_iff {room : Option ℕ} {record : Record} {comment : Bytes}
    (htype : IsWord record.keyType) (hkey : IsWord record.key) :
    IsRecordLine (upTo room (record.text ++ endOfEntry comment)) record ↔
      FitsLine room record comment := by
  constructor
  · rintro ⟨line, hline, hwritten, hrecord⟩
    refine ⟨isHosts_of_recordOf hline hrecord, fun n hn ↦ ?_, ?_⟩
    · have hroom := within_upTo room (record.text ++ endOfEntry comment) n hn
      have hlength := length_le_of_recordOf hrecord
      rcases hwritten with h | h <;> rw [h] at hroom
      · omega
      · rw [List.length_append] at hroom
        omega
    · rcases hwritten with h | h <;> rw [h]
      · exact fun hmem ↦ hline (List.dropLast_subset line hmem)
      · rwa [List.dropLast_concat]
  · intro h
    have hline := h.one_line
    rw [upTo_append h.fits] at hline ⊢
    exact isRecordLine_append h.hosts htype hkey (upTo_isPrefix _ _) hline

/-- An entry that begins with a newline has it from its host field. -/
theorem newline_mem_hosts {room : Option ℕ} {record : Record} {comment : Bytes}
    (h : (upTo room (record.text ++ endOfEntry comment)).head? = some newline) :
    newline ∈ record.hosts := by
  obtain ⟨rest, hrest⟩ := List.head?_eq_some_iff.mp h
  obtain ⟨more, hmore⟩ := upTo_isPrefix room (record.text ++ endOfEntry comment)
  rw [hrest, Record.text] at hmore
  cases hhosts : record.hosts with
  | nil =>
    rw [hhosts] at hmore
    exact nomatch (List.cons.inj hmore).1
  | cons byte hosts =>
    rw [hhosts] at hmore
    rw [(List.cons.inj hmore).1]
    exact List.mem_cons_self

namespace KnownHosts

/-- The room that the file has behind what it contains. -/
def room (files : KnownHosts) : Option ℕ := files.userFile.ioLimit.map (· - files.text.length)

theorem writeEntry_eq (out : OutStream) (hosts keyType b64 comment : Bytes) :
    writeEntry out hosts keyType b64 comment =
      out.write (Record.text { hosts, keyType, key := b64 } ++ endOfEntry comment) := by
  unfold writeEntry endOfEntry
  by_cases hcomment : comment = []
  · simp [hcomment, OutStream.write_append, Record.text, ascii]
  · simp [hcomment, OutStream.write_append, Record.text, ascii]

variable {K : Type} {pki : Pki K} {files : KnownHosts} {host : Bytes} {port : UInt16} {key : Key K}
  {comment b64 : Bytes}

theorem add_of_export_error {info : ErrorInfo} (h : key.toPublicBase64 pki = .error info) :
    files.add pki host port key comment = (.error info, files) := by
  rw [add, h]

theorem add_of_closed (h : key.toPublicBase64 pki = .ok b64)
    (hclosed : files.userFile.canOpen = false) :
    ∃ info, files.add pki host port key comment = (.error info, files) := by
  rw [add, h]
  dsimp only
  rw [hclosed]
  exact ⟨_, rfl⟩

theorem add_of_open (h : key.toPublicBase64 pki = .ok b64)
    (hopen : files.userFile.canOpen = true) :
    ∃ after, files.add pki host port key comment = (.ok (), after) ∧
      after.text = files.text ++ upTo files.room
        (Record.text { hosts := hostsField host port, keyType := key.typeName pki, key := b64 } ++
          endOfEntry comment) := by
  rw [add, h]
  dsimp only
  rw [if_pos hopen, writeEntry_eq]
  exact ⟨_, rfl, rfl⟩

/-- On success the file has its lines and one more with the record of the host and the key, and
on an error it has its lines. -/
def KeepsLines (pki : Pki K) (files : KnownHosts) (host : Bytes) (port : UInt16) (key : Key K)
    (outcome : Result Unit × KnownHosts) : Prop :=
  match outcome.1 with
  | .ok () => ∃ b64, key.toPublicBase64 pki = .ok b64 ∧ AddsRecord files.text outcome.2.text
      { hosts := hostsField host port, keyType := key.typeName pki, key := b64 }
  | .error _ => linesOf newline outcome.2.text = linesOf newline files.text

/-- If an entry is written, the file has ended its last line and takes the entry as one line. -/
def Appendable (pki : Pki K) (files : KnownHosts) (host : Bytes) (port : UInt16) (key : Key K)
    (comment : Bytes) : Prop :=
  ∀ b64, key.toPublicBase64 pki = .ok b64 → files.userFile.canOpen = true →
    Terminated newline files.text ∧ FitsLine files.room
      { hosts := hostsField host port, keyType := key.typeName pki, key := b64 } comment

/-- For every file, host, port, key and comment: `add` keeps the lines of the file exactly if
the entry is appendable. -/
theorem keepsLines_add_iff (pki : Pki K) (hpki : pki.WritesWords) (files : KnownHosts)
    (host : Bytes) (port : UInt16) (key : Key K) (comment : Bytes) :
    KeepsLines pki files host port key (files.add pki host port key comment) ↔
      Appendable pki files host port key comment := by
  cases hb64 : key.toPublicBase64 pki with
  | error info =>
    rw [add_of_export_error hb64]
    refine iff_of_true rfl fun b64 h ↦ ?_
    rw [hb64] at h
    exact nomatch h
  | ok b64 =>
    cases hopen : files.userFile.canOpen with
    | false =>
      obtain ⟨info, hadd⟩ : ∃ info, files.add pki host port key comment = (.error info, files) :=
        add_of_closed hb64 hopen
      rw [hadd]
      refine iff_of_true rfl fun _ _ h ↦ ?_
      rw [hopen] at h
      exact nomatch h
    | true =>
      let record : Record :=
        { hosts := hostsField host port, keyType := key.typeName pki, key := b64 }
      obtain ⟨after, hadd, hafter⟩ : ∃ after, files.add pki host port key comment = (.ok (), after) ∧
          after.text = files.text ++ upTo files.room (record.text ++ endOfEntry comment) :=
        add_of_open hb64 hopen
      have hadds : AddsRecord files.text after.text record ↔
          Terminated newline files.text ∧ FitsLine files.room record comment := by
        rw [hafter, addsRecord_iff newline_mem_hosts, isRecordLine_upTo_iff
          (Key.isWord_typeName hpki key) (Key.isWord_toPublicBase64 hpki hb64)]
      rw [hadd]
      constructor
      · rintro ⟨text, htext, hrecord⟩ text' htext' -
        obtain rfl : b64 = text := Except.ok.inj (hb64.symm.trans htext)
        obtain rfl : b64 = text' := Except.ok.inj (hb64.symm.trans htext')
        exact hadds.mp hrecord
      · intro h
        exact ⟨b64, hb64, hadds.mpr (h b64 hb64 hopen)⟩

/-- A user's file with the content, and the number of bytes it can hold. -/
def ofContent (content : String) (ioLimit : Option ℕ) : KnownHosts where
  userFile := { path := "known_hosts", content := some (ascii content), ioLimit }

/-- A file of one line, a host on another port and a comment. -/
theorem keepsLines_add_iff_pair :
    KeepsLines ed25519Pair (ofContent "a ssh-rsa AAAAB3Nz\n" none) (ascii "b") 2222
      { native := some true }
      (add ed25519Pair (ofContent "a ssh-rsa AAAAB3Nz\n" none) (ascii "b") 2222
        { native := some true } (ascii "at home")) := by
  refine (keepsLines_add_iff ed25519Pair ed25519Pair_roundTrips.toWritesWords
    (ofContent "a ssh-rsa AAAAB3Nz\n" none) (ascii "b") 2222 { native := some true }
    (ascii "at home")).mpr fun b64 h _ ↦ ?_
  obtain rfl := Except.ok.inj h
  exact ⟨by decide +kernel, ⟨⟨⟨by decide +kernel, by decide +kernel⟩, by decide +kernel,
    by decide +kernel, by decide +kernel⟩, nofun, by decide +kernel⟩⟩

def addPair (files : KnownHosts) (comment : String) : Result Unit × KnownHosts :=
  add ed25519Pair files (ascii "b") 22 { native := some true } (ascii comment)

/-- An entry goes into a last line that is not ended, a comment brings a line of its own, and
on a full disk nothing is written; each time `add` succeeds. -/
theorem add_breaks_lines :
    (addPair (ofContent "a ssh-rsa AAAAB3Nz" none) "").1 = .ok () ∧
      linesOf newline (addPair (ofContent "a ssh-rsa AAAAB3Nz" none) "").2.text =
        [ascii "a ssh-rsa AAAAB3Nzb ssh-ed25519 AAAAC3Nz"] ∧
      (addPair (ofContent "" none) "x\nc ssh-rsa AAAAB3Nz").1 = .ok () ∧
      linesOf newline (addPair (ofContent "" none) "x\nc ssh-rsa AAAAB3Nz").2.text =
        [ascii "b ssh-ed25519 AAAAC3Nz x", ascii "c ssh-rsa AAAAB3Nz"] ∧
      (addPair (ofContent "" (some 0)) "").1 = .ok () ∧
      (addPair (ofContent "" (some 0)) "").2.text = [] ∧
      ¬ KeepsLines ed25519Pair (ofContent "a ssh-rsa AAAAB3Nz" none) (ascii "b") 22
        { native := some true } (addPair (ofContent "a ssh-rsa AAAAB3Nz" none) "") := by
  have hlines : linesOf newline (addPair (ofContent "a ssh-rsa AAAAB3Nz" none) "").2.text =
      [ascii "a ssh-rsa AAAAB3Nzb ssh-ed25519 AAAAC3Nz"] := by decide +kernel
  refine ⟨rfl, hlines, rfl, by decide +kernel, rfl, by decide +kernel, ?_⟩
  rintro ⟨b64, -, line, hadded, -⟩
  have hbefore : (linesOf newline (ofContent "a ssh-rsa AAAAB3Nz" none).text).length = 1 := by
    decide +kernel
  have hlength := congrArg List.length (hlines.symm.trans hadded)
  rw [List.length_append, hbefore] at hlength
  exact nomatch hlength

end KnownHosts

end LibSshpp.Client
