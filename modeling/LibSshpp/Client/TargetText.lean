import LibSshpp.Client.ApplyOptions
import LibSshpp.Foundation.Cut
import LibSshpp.Foundation.Stoi

/-!
`SessionOptions::parse_target`, which splits a target of the form `user@host:port` or
`user@[host]:port`. The first `@` and the first `]` are searched from the front, the colon
of a bare host from the back. The port goes through `std::stoi`, whose exceptions leave the
function and whose leniency it inherits.
-/

set_option autoImplicit false
set_option relaxedAutoImplicit false

namespace LibSshpp.Client

def FullOptions.validate (opts : FullOptions) : Result Unit :=
  if opts.host = [] then
    .error
      { code := .ssh .invalidArgument, message := "host must not be empty"
        operation := "SessionOptions::validate" }
  else .ok ()

def FullOptions.validated (opts : FullOptions) : Result FullOptions := do
  opts.validate
  pure opts

/-- What follows once the parts are found: the port is converted, and the options are
validated. -/
def finishTarget (user : Option Bytes) (host : Bytes) :
    Option Bytes → Except StoiError (Result FullOptions)
  | none => pure (FullOptions.validated { user, host })
  | some portText => do
    let value ← stoi portText
    pure (FullOptions.validated { user, host, port := some (UInt16.ofInt value) })

def unterminatedTarget : ErrorInfo where
  code := .ssh .invalidArgument
  message := "unterminated '[' in target"
  operation := "SessionOptions::parse_target"

/-- The part of the target behind its user. -/
def parseHost (user : Option Bytes) (rest : Bytes) : Except StoiError (Result FullOptions) :=
  if rest.head? = some 0x5b then
    match cutFirst 0x5d rest with
    | none => .ok (.error unterminatedTarget)
    | some (opened, behind) =>
      finishTarget user (opened.drop 1)
        (if behind.head? = some 0x3a then some (behind.drop 1) else none)
  else
    match cutLast 0x3a rest with
    | some (host, portText) => finishTarget user host (some portText)
    | none => finishTarget user rest none

/-- `SessionOptions::parse_target`; what leaves it as an exception is the outer error. -/
def parseTarget (target : Bytes) : Except StoiError (Result FullOptions) :=
  match cutFirst 0x40 target with
  | some (user, rest) => parseHost (some user) rest
  | none => parseHost none target

/-! ### The parts of a target -/

/-- The user and what is behind it. -/
inductive SplitsUser : Bytes → Option Bytes → Bytes → Prop
  | absent {rest : Bytes} (hat : 0x40 ∉ rest) : SplitsUser rest none rest
  | given {user : Bytes} (hat : 0x40 ∉ user) (rest : Bytes) :
    SplitsUser (user ++ 0x40 :: rest) (some user) rest

/-- The host, the text of the port, and text behind a bracket that is no port. -/
inductive SplitsHost : Bytes → Bytes → Option Bytes → Bytes → Prop
  | bare {host : Bytes} (hbracket : host.head? ≠ some 0x5b) (hcolon : 0x3a ∉ host) :
    SplitsHost host host none []
  | barePort {host portText : Bytes} (hbracket : (host ++ 0x3a :: portText).head? ≠ some 0x5b)
    (hcolon : 0x3a ∉ portText) : SplitsHost (host ++ 0x3a :: portText) host (some portText) []
  | bracketed {host ignored : Bytes} (hclose : 0x5d ∉ host) (hcolon : ignored.head? ≠ some 0x3a) :
    SplitsHost (0x5b :: host ++ 0x5d :: ignored) host none ignored
  | bracketedPort {host : Bytes} (hclose : 0x5d ∉ host) (portText : Bytes) :
    SplitsHost (0x5b :: host ++ 0x5d :: 0x3a :: portText) host (some portText) []

/-- A bracket is opened and not closed. -/
def Unterminated (rest : Bytes) : Prop := rest.head? = some 0x5b ∧ 0x5d ∉ rest

theorem exists_splitsUser (target : Bytes) : ∃ user rest, SplitsUser target user rest := by
  cases hcut : cutFirst 0x40 target with
  | none => exact ⟨none, target, .absent (cutFirst_eq_none_iff.mp hcut)⟩
  | some cut =>
    obtain ⟨rfl, hat⟩ := cutFirst_eq_some_iff.mp hcut
    exact ⟨some cut.1, cut.2, .given hat cut.2⟩

theorem exists_splitsHost {rest : Bytes} (hclosed : ¬ Unterminated rest) :
    ∃ host portText ignored, SplitsHost rest host portText ignored := by
  by_cases hbracket : rest.head? = some 0x5b
  · cases hcut : cutFirst 0x5d rest with
    | none => exact absurd ⟨hbracket, cutFirst_eq_none_iff.mp hcut⟩ hclosed
    | some cut =>
      obtain ⟨hrest, hclose⟩ := cutFirst_eq_some_iff.mp hcut
      obtain ⟨opened, behind⟩ := cut
      -- the bracket that opens is not the one that closes
      obtain ⟨host, rfl⟩ : ∃ host, opened = 0x5b :: host := by
        cases opened with
        | nil =>
          rw [hrest] at hbracket
          exact absurd (Option.some.inj hbracket) (by decide)
        | cons first host =>
          rw [hrest] at hbracket
          exact ⟨host, by rw [Option.some.inj hbracket]⟩
      have hhost : 0x5d ∉ host := fun h ↦ hclose (List.mem_cons_of_mem _ h)
      rw [hrest]
      by_cases hcolon : behind.head? = some 0x3a
      · obtain ⟨portText, rfl⟩ := List.head?_eq_some_iff.mp hcolon
        exact ⟨host, some portText, [], .bracketedPort hhost portText⟩
      · exact ⟨host, none, behind, .bracketed hhost hcolon⟩
  · cases hcut : cutLast 0x3a rest with
    | none => exact ⟨rest, none, [], .bare hbracket (cutLast_eq_none_iff.mp hcut)⟩
    | some cut =>
      obtain ⟨rfl, hcolon⟩ := cutLast_eq_some_iff.mp hcut
      exact ⟨cut.1, some cut.2, [], .barePort hbracket hcolon⟩

theorem parseTarget_of_splitsUser {target rest : Bytes} {user : Option Bytes}
    (h : SplitsUser target user rest) : parseTarget target = parseHost user rest := by
  cases h with
  | absent hat => rw [parseTarget, cutFirst_eq_none_iff.mpr hat]
  | given hat rest => rw [parseTarget, cutFirst_append hat]

theorem parseHost_bracketed {host : Bytes} (hclose : 0x5d ∉ host) (behind : Bytes)
    (user : Option Bytes) :
    parseHost user (0x5b :: host ++ 0x5d :: behind) =
      finishTarget user host (if behind.head? = some 0x3a then some (behind.drop 1) else none) := by
  have hopened : 0x5d ∉ (0x5b : UInt8) :: host := by
    rw [List.mem_cons, not_or]
    exact ⟨by decide, hclose⟩
  have hbracket : (0x5b :: host ++ 0x5d :: behind).head? = some 0x5b := rfl
  rw [parseHost, if_pos hbracket, cutFirst_append hopened]
  rfl

theorem parseHost_of_splitsHost {rest host ignored : Bytes} {portText : Option Bytes}
    (h : SplitsHost rest host portText ignored) (user : Option Bytes) :
    parseHost user rest = finishTarget user host portText := by
  cases h with
  | bare hbracket hcolon =>
    rw [parseHost, if_neg hbracket, cutLast_eq_none_iff.mpr hcolon]
  | barePort hbracket hcolon =>
    rw [parseHost, if_neg hbracket, cutLast_append hcolon]
  | bracketed hclose hcolon => rw [parseHost_bracketed hclose, if_neg hcolon]
  | bracketedPort hclose portText =>
    rw [parseHost_bracketed hclose]
    exact congrArg (finishTarget user host) (if_pos rfl)

theorem parseHost_of_unterminated {rest : Bytes} (h : Unterminated rest) (user : Option Bytes) :
    parseHost user rest = .ok (.error unterminatedTarget) := by
  rw [parseHost, if_pos h.1, cutFirst_eq_none_iff.mpr h.2]

theorem FullOptions.validated_of_host {opts : FullOptions} (h : opts.host ≠ []) :
    opts.validated = .ok opts := by
  rw [validated, validate, if_neg h]
  rfl

theorem FullOptions.validated_of_no_host {opts : FullOptions} (h : opts.host = []) :
    ∃ info, opts.validated = .error info ∧ info.code = .ssh .invalidArgument := by
  rw [validated, validate, if_pos h]
  exact ⟨_, rfl, rfl⟩

theorem finishTarget_of_ok {portText : Bytes} {value : ℤ} (h : stoi portText = .ok value)
    (user : Option Bytes) (host : Bytes) :
    finishTarget user host (some portText) =
      .ok (FullOptions.validated { user, host, port := some (UInt16.ofInt value) }) := by
  rw [finishTarget, h]
  rfl

theorem finishTarget_of_error {portText : Bytes} {error : StoiError}
    (h : stoi portText = .error error) (user : Option Bytes) (host : Bytes) :
    finishTarget user host (some portText) = .error error := by
  rw [finishTarget, h]
  rfl

/-- The text is a numeral of the port. -/
def PortNumeral (text : Bytes) (port : UInt16) : Prop := Numeral text port.toNat

/-- A port that is written as a numeral is read back. -/
theorem finishTarget_of_numeral {text : Bytes} {port : UInt16} (h : PortNumeral text port)
    (user : Option Bytes) (host : Bytes) :
    finishTarget user host (some text) =
      .ok (FullOptions.validated { user, host, port := some port }) := by
  have hlt : port.toNat < 2 ^ 16 := port.toNat_lt
  have hstoi : stoi text = .ok (port.toNat : ℤ) := by
    rw [stoi_numeral h, if_pos (by omega)]
  have hport : UInt16.ofInt port.toNat = port := by
    have hsmall : ((port.toNat : ℤ) % 2 ^ 16).toNat = port.toNat := by omega
    rw [UInt16.ofInt, hsmall, UInt16.ofNat_toNat]
  rw [finishTarget_of_ok hstoi, hport]

/-! ### Round trip -/

/-- A host as a target has it: bare, or in brackets. -/
inductive HostText : Bytes → Bytes → Prop
  | bare {host : Bytes} (hcolon : 0x3a ∉ host) (hbracket : host.head? ≠ some 0x5b) :
    HostText host host
  | bracketed {host : Bytes} (hclose : 0x5d ∉ host) : HostText host (0x5b :: host ++ [0x5d])

/-- The text of a port with its colon, if there is one. -/
def portSuffix (port : Option UInt16) : Bytes :=
  port.elim [] fun port ↦ 0x3a :: decimal port.toNat

/-- `[user@]host[:port]`. -/
def formatTarget (user : Option Bytes) (hostText : Bytes) (port : Option UInt16) : Bytes :=
  user.elim [] (fun name ↦ name ++ [0x40]) ++ (hostText ++ portSuffix port)

theorem splitsHost_of_hostText {host hostText : Bytes} (h : HostText host hostText)
    (hhost : host ≠ []) (port : Option UInt16) :
    SplitsHost (hostText ++ portSuffix port) host (port.map fun port ↦ decimal port.toNat) [] := by
  cases h with
  | bare hcolon hbracket =>
    cases port with
    | none =>
      rw [portSuffix, Option.elim_none, List.append_nil]
      exact .bare hbracket hcolon
    | some port =>
      refine .barePort ?_ (notMem_decimal (by decide) _)
      rw [List.head?_append_of_ne_nil _ hhost]
      exact hbracket
  | bracketed hclose =>
    rw [List.append_assoc]
    cases port with
    | none => exact .bracketed hclose (nomatch ·)
    | some port => exact .bracketedPort hclose _

theorem at_notMem_hostText {host hostText : Bytes} (h : HostText host hostText)
    (hat : 0x40 ∉ host) (port : Option UInt16) : 0x40 ∉ hostText ++ portSuffix port := by
  have hport : 0x40 ∉ portSuffix port := by
    cases port with
    | none => exact List.not_mem_nil
    | some port =>
      show 0x40 ∉ 0x3a :: decimal port.toNat
      rw [List.mem_cons, not_or]
      exact ⟨by decide, notMem_decimal (by decide) _⟩
  rw [List.mem_append, not_or, and_iff_left hport]
  cases h with
  | bare hcolon hbracket => exact hat
  | bracketed hclose =>
    rw [List.mem_append, List.mem_cons, not_or, not_or, List.mem_singleton]
    exact ⟨⟨by decide, hat⟩, by decide⟩

theorem splitsUser_format {user : Option Bytes} (huser : ∀ name, user = some name → 0x40 ∉ name)
    {rest : Bytes} (hat : 0x40 ∉ rest) :
    SplitsUser (user.elim [] (fun name ↦ name ++ [0x40]) ++ rest) user rest := by
  cases user with
  | none => exact .absent hat
  | some name =>
    rw [Option.elim_some, List.append_assoc]
    exact .given (huser name rfl) rest

/-- The number of a port survives the way through its text. -/
theorem finishTarget_port {user : Option Bytes} {host : Bytes} (hhost : host ≠ [])
    (port : Option UInt16) :
    finishTarget user host (port.map fun port ↦ decimal port.toNat) =
      .ok (.ok { user, host, port }) := by
  cases port with
  | none => exact congrArg Except.ok (FullOptions.validated_of_host hhost)
  | some port =>
    have hnumeral : PortNumeral (decimal port.toNat) port := numeral_decimal port.toNat
    rw [Option.map_some, finishTarget_of_numeral hnumeral]
    exact congrArg Except.ok (FullOptions.validated_of_host hhost)

/-- A target that is put together from a user, a host and a port, each of which may be left
out but the host, is taken apart into these. -/
theorem parseTarget_formatTarget (user : Option Bytes) (host hostText : Bytes)
    (port : Option UInt16) (huser : ∀ name, user = some name → 0x40 ∉ name) (hhost : host ≠ [])
    (hat : 0x40 ∉ host) (htext : HostText host hostText) :
    parseTarget (formatTarget user hostText port) = .ok (.ok { user, host, port }) := by
  have hrest := at_notMem_hostText htext hat port
  rw [formatTarget, parseTarget_of_splitsUser (splitsUser_format huser hrest),
    parseHost_of_splitsHost (splitsHost_of_hostText htext hhost port), finishTarget_port hhost]

theorem parseTarget_formatTarget_bracketed :
    parseTarget (ascii "user@[::1]:2222") =
      .ok (.ok { user := some (ascii "user"), host := ascii "::1", port := some 2222 }) :=
  parseTarget_formatTarget (some (ascii "user")) (ascii "::1") (ascii "[::1]") (some 2222)
    (by decide) (by decide) (by decide) (.bracketed (by decide))

/-! ### Malformed targets -/

/-- A target is answered with a result and not with an exception. A success has ignored
nothing, and its port is the number that the text of the port is a numeral of; an error is
`invalid_argument`. -/
structure AnswersTarget (target : Bytes) (answer : Except StoiError (Result FullOptions)) :
    Prop where
  returns : ∃ result, answer = .ok result
  accepted : ∀ opts, answer = .ok (.ok opts) → ∃ user rest host portText,
    SplitsUser target user rest ∧ SplitsHost rest host portText [] ∧
      ∀ text, portText = some text → ∃ port, opts.port = some port ∧ PortNumeral text port
  refused : ∀ info, answer = .ok (.error info) → info.code = .ssh .invalidArgument

/-- The target has a bracket that is not closed; or nothing in it is ignored and the text of
its port, if it has one, is a numeral of a port; or it has no host, and the text of its port
is one that `std::stoi` takes. -/
def TargetAnswerable (target : Bytes) : Prop :=
  ∃ user rest, SplitsUser target user rest ∧
    (Unterminated rest ∨ ∃ host portText ignored, SplitsHost rest host portText ignored ∧
      (ignored = [] ∧ (∀ text, portText = some text → ∃ port, PortNumeral text port) ∨
        host = [] ∧ ∀ text, portText = some text → ∃ value, stoi text = .ok value))

theorem answersTarget_error {target : Bytes} {info : ErrorInfo}
    (h : info.code = .ssh .invalidArgument) : AnswersTarget target (.ok (.error info)) where
  returns := ⟨_, rfl⟩
  accepted := fun _ h ↦ nomatch Except.ok.inj h
  refused := fun _ hinfo ↦ by
    obtain rfl := Except.error.inj (Except.ok.inj hinfo)
    exact h

/-- Options without a host are refused as they should be. -/
theorem answersTarget_validated {target : Bytes} {opts : FullOptions} (h : opts.host = []) :
    AnswersTarget target (.ok opts.validated) := by
  obtain ⟨info, hvalidated, hcode⟩ := FullOptions.validated_of_no_host h
  rw [hvalidated]
  exact answersTarget_error hcode

/-- Without a host there is no success. -/
theorem answersTarget_of_no_host {target : Bytes} {user : Option Bytes} {portText : Option Bytes}
    (h : ∀ text, portText = some text → ∃ value, stoi text = .ok value) :
    AnswersTarget target (finishTarget user [] portText) := by
  cases portText with
  | none => exact answersTarget_validated rfl
  | some text =>
    obtain ⟨value, hvalue⟩ := h text rfl
    rw [finishTarget_of_ok hvalue]
    exact answersTarget_validated rfl

theorem answersTarget_of_numeral {target rest host : Bytes} {user portText : Option Bytes}
    (huser : SplitsUser target user rest) (hsplits : SplitsHost rest host portText [])
    (hport : ∀ text, portText = some text → ∃ port, PortNumeral text port) :
    AnswersTarget target (finishTarget user host portText) := by
  obtain ⟨port, hfinish, hread⟩ : ∃ port, finishTarget user host portText =
      .ok (FullOptions.validated { user, host, port }) ∧
        ∀ text, portText = some text → ∃ read, port = some read ∧ PortNumeral text read := by
    cases portText with
    | none => exact ⟨none, rfl, nofun⟩
    | some text =>
      obtain ⟨port, hnumeral⟩ := hport text rfl
      refine ⟨some port, finishTarget_of_numeral hnumeral user host, ?_⟩
      intro other hother
      obtain rfl := Option.some.inj hother
      exact ⟨port, rfl, hnumeral⟩
  rw [hfinish]
  by_cases hhost : host = []
  · exact answersTarget_validated hhost
  · rw [FullOptions.validated_of_host hhost]
    refine ⟨⟨_, rfl⟩, fun opts hopts ↦ ?_, fun _ hinfo ↦ nomatch Except.ok.inj hinfo⟩
    obtain rfl := Except.ok.inj (Except.ok.inj hopts)
    exact ⟨user, rest, host, portText, huser, hsplits, hread⟩

/-- `std::stoi` takes the text of the port of a target that is answered. -/
theorem stoi_of_returns {user portText : Option Bytes} {host : Bytes}
    (h : ∃ result, finishTarget user host portText = .ok result) {text : Bytes}
    (htext : portText = some text) : ∃ value, stoi text = .ok value := by
  subst htext
  cases hstoi : stoi text with
  | ok value => exact ⟨value, rfl⟩
  | error error =>
    rw [finishTarget_of_error hstoi] at h
    obtain ⟨result, hresult⟩ := h
    exact nomatch hresult

theorem finishTarget_success {user portText : Option Bytes} {host : Bytes} (hhost : host ≠ [])
    (h : ∃ result, finishTarget user host portText = .ok result) :
    ∃ opts, finishTarget user host portText = .ok (.ok opts) := by
  cases portText with
  | none => exact ⟨_, congrArg Except.ok (FullOptions.validated_of_host hhost)⟩
  | some text =>
    obtain ⟨value, hvalue⟩ := stoi_of_returns h rfl
    exact ⟨_, (finishTarget_of_ok hvalue user host).trans
      (congrArg Except.ok (FullOptions.validated_of_host hhost))⟩

/-- For every string: `parse_target` answers it as it should exactly if it is answerable. -/
theorem answersTarget_iff (target : Bytes) :
    AnswersTarget target (parseTarget target) ↔ TargetAnswerable target := by
  constructor
  · intro h
    obtain ⟨user, rest, huser⟩ := exists_splitsUser target
    by_cases hopen : Unterminated rest
    · exact ⟨user, rest, huser, .inl hopen⟩
    · obtain ⟨host, portText, ignored, hsplits⟩ := exists_splitsHost hopen
      rw [parseTarget_of_splitsUser huser, parseHost_of_splitsHost hsplits] at h
      by_cases hhost : host = []
      · exact ⟨user, rest, huser, .inr ⟨host, portText, ignored, hsplits,
          .inr ⟨hhost, fun text htext ↦ stoi_of_returns h.returns htext⟩⟩⟩
      · obtain ⟨opts, hopts⟩ := finishTarget_success hhost h.returns
        obtain ⟨user', rest', host', portText', huser', hsplits', hport⟩ := h.accepted opts hopts
        refine ⟨user', rest', huser', .inr ⟨host', portText', [], hsplits', .inl ⟨rfl, ?_⟩⟩⟩
        intro text htext
        obtain ⟨port, -, hnumeral⟩ := hport text htext
        exact ⟨port, hnumeral⟩
  · rintro ⟨user, rest, huser, hopen | ⟨host, portText, ignored, hsplits, hcondition⟩⟩
    · rw [parseTarget_of_splitsUser huser, parseHost_of_unterminated hopen]
      exact answersTarget_error rfl
    · rw [parseTarget_of_splitsUser huser, parseHost_of_splitsHost hsplits]
      rcases hcondition with ⟨rfl, hport⟩ | ⟨rfl, hstoi⟩
      · exact answersTarget_of_numeral huser hsplits hport
      · exact answersTarget_of_no_host hstoi

/-- A port that is no number leaves as an exception; one that is too large, or has a sign
or text behind it, is taken for another; and text behind a bracket is ignored. -/
theorem parseTarget_malformed :
    parseTarget (ascii "host:ssh") = .error .invalidArgument ∧
      parseTarget (ascii "host:65558") =
        .ok (.ok { host := ascii "host", port := some 22 }) ∧
      parseTarget (ascii "host: -1x") =
        .ok (.ok { host := ascii "host", port := some 65535 }) ∧
      parseTarget (ascii "[::1]2222") = .ok (.ok { host := ascii "::1" }) ∧
      ¬ AnswersTarget (ascii "host:ssh") (parseTarget (ascii "host:ssh")) := by
  have hthrows : parseTarget (ascii "host:ssh") = .error .invalidArgument := by decide +kernel
  refine ⟨hthrows, by decide +kernel, by decide +kernel, by decide +kernel, fun h ↦ ?_⟩
  obtain ⟨result, hresult⟩ := h.returns
  rw [hthrows] at hresult
  exact nomatch hresult

end LibSshpp.Client
