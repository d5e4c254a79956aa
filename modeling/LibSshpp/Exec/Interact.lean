import LibSshpp.Exec.WaitExit

/-!
`Shell::try_interact`, which relays a terminal to a channel until the channel ends, the
terminal does, or the user types the escape character and a dot at the start of a line. An
escape character there is held back until the next byte says what it was.
-/

set_option autoImplicit false
set_option relaxedAutoImplicit false

namespace LibSshpp.Exec

structure InteractOptions where
  enableEscape : Bool := true
  escapeChar : UInt8 := 0x7e
  deriving DecidableEq, Repr

structure PtySize where
  columns : ℕ := 80
  rows : ℕ := 24
  deriving DecidableEq, Repr

/-- What the channel says of one stream: how much has arrived, and what the read returns. -/
structure Arrival where
  available : Result ℕ := .ok 0
  read : Result Bytes := .ok []

/-- What `poll` and `read` find on the terminal. -/
inductive Input
  | nothing
  | ended
  | byte (c : UInt8)
  deriving DecidableEq, Repr

/-- What a round of the relay meets; `resized` is the size of the terminal if the signal of a
change has come since the last round. -/
structure RelayRound where
  isOpen : Bool := true
  isEof : Bool := false
  resized : Option PtySize := none
  stdout : Arrival := {}
  stderr : Arrival := {}
  input : Input := .nothing

/-- The relay's variables, with the bytes read from the terminal, those given to
`try_write_all`, what was written to the terminal and the sizes requested. -/
structure Relay where
  atLineStart : Bool := true
  escapeSeen : Bool := false
  detach : Bool := false
  typed : Bytes := []
  forwarded : Bytes := []
  shown : List (Stream × Bytes) := []
  resizes : List PtySize := []
  deriving DecidableEq, Repr

namespace Relay

/-- The size is requested again when the terminal has changed. -/
def resize (resized : Option PtySize) (relay : Relay) : Relay :=
  { relay with resizes := relay.resizes ++ resized.toList }

/-- What a stream has goes to the terminal, as far as one buffer holds it. -/
def showOutput (stream : Stream) (arrival : Arrival) (relay : Relay) : Relay :=
  match arrival.available, arrival.read with
  | .ok (available + 1), .ok (first :: rest) =>
    let data := (first :: rest).take (min chunkSize (available + 1))
    { relay with shown := relay.shown ++ [(stream, data)] }
  | _, _ => relay

end Relay

/-- The byte that ends a line. -/
def isLineEnd (c : UInt8) : Bool := c == 0x0a || c == 0x0d

/-- The dot after an escape character. -/
def detachByte : UInt8 := 0x2e

/-- A byte that is not held back. The result of the write is not looked at. -/
def forwardByte (c : UInt8) (relay : Relay) : Relay :=
  { relay with atLineStart := isLineEnd c, forwarded := relay.forwarded ++ [c] }

/-- What the relay does with a byte from the terminal. -/
def typeByte (options : InteractOptions) (c : UInt8) (before : Relay) : Relay :=
  let relay := { before with typed := before.typed ++ [c] }
  if options.enableEscape && (relay.atLineStart && c == options.escapeChar) then
    { relay with escapeSeen := true, atLineStart := false }
  else if options.enableEscape && relay.escapeSeen then
    if c == detachByte then { relay with escapeSeen := false, detach := true }
    else
      -- not an escape sequence: both bytes go to the channel
      forwardByte c { relay with
        escapeSeen := false, forwarded := relay.forwarded ++ [options.escapeChar] }
  else forwardByte c relay

/-- One round of the loop: whether it goes on, and the relay after it. -/
def relayRound (options : InteractOptions) (round : RelayRound) (before : Relay) : Bool × Relay :=
  let relay := ((before.resize round.resized).showOutput .stdout round.stdout).showOutput
    .stderr round.stderr
  match round.input with
  | .nothing => (true, relay)
  | .ended => (false, relay)
  | .byte c => (true, typeByte options c relay)

/-- The loop of `try_interact` in these rounds: whether it was left, and the relay then. -/
def relayLoop (options : InteractOptions) : List RelayRound → Relay → Bool × Relay
  | [], relay => (relay.detach, relay)
  | round :: rounds, relay =>
    if relay.detach || !round.isOpen || round.isEof then (true, relay)
    else
      match relayRound options round relay with
      | (false, after) => (true, after)
      | (true, after) => relayLoop options rounds after

/-- `Shell::try_interact`, with the relay as it was left; nothing yet if the loop does not end
within the rounds. -/
def tryInteract (options : InteractOptions) (rounds : List RelayRound) (native : Bool)
    (peer : ℕ → DrainRound) (reported : Option NativeExit) :
    Option (Result ExitState × Relay) :=
  match relayLoop options rounds {} with
  | (false, _) => none
  | (true, relay) =>
    if relay.detach then some (.ok {}, relay)
    else
      match (tryWaitExit native 2000 peer reported []).1 with
      | .ok exit => some (.ok exit, relay)
      | .error _ => some (.ok (exitState native reported), relay)

/-! ### Escape sequences in a text -/

/-- The next byte would be the first of a line. -/
def StartsLine (before : Bytes) : Prop := ∀ last ∈ before.getLast?, isLineEnd last = true

/-- Behind `before`, at the start of a line, the text goes on with the escape character and
the dot. -/
def DetachesAfter (escape : UInt8) (typed before : Bytes) : Prop :=
  StartsLine before ∧ before ++ [escape, detachByte] <+: typed

/-- The escape character that is held back, if one is. -/
def Relay.held (options : InteractOptions) (relay : Relay) : Bytes :=
  if relay.escapeSeen then [options.escapeChar] else []

theorem startsLine_concat {before : Bytes} {c : UInt8} :
    StartsLine (before ++ [c]) ↔ isLineEnd c = true := by
  simp [StartsLine]

/-- One more byte completes an escape sequence or leaves those there are. -/
theorem detachesAfter_concat {escape c : UInt8} {typed before : Bytes} :
    DetachesAfter escape (typed ++ [c]) before ↔
      DetachesAfter escape typed before ∨
        c = detachByte ∧ typed = before ++ [escape] ∧ StartsLine before := by
  have hend : before ++ [escape, detachByte] = typed ++ [c] ↔
      c = detachByte ∧ typed = before ++ [escape] := by
    rw [show before ++ [escape, detachByte] = before ++ [escape] ++ [detachByte] by simp,
      List.append_singleton_inj, and_comm]
    exact and_congr eq_comm eq_comm
  unfold DetachesAfter
  rw [List.prefix_concat_iff, hend]
  tauto

/-! ### The relay keeps to the text -/

variable {options : InteractOptions}

/-- A relay that has not been detached: what it forwarded and holds is what was typed, its
flags say what the text says, and no escape sequence is complete. -/
structure Relay.Running (options : InteractOptions) (relay : Relay) : Prop where
  attached : relay.detach = false
  forwarded_held : relay.forwarded ++ relay.held options = relay.typed
  atLineStart_iff : relay.atLineStart = true ↔ StartsLine relay.typed
  escapeSeen_iff : relay.escapeSeen = true ↔
    ∃ before, relay.typed = before ++ [options.escapeChar] ∧ StartsLine before
  not_detaches : ∀ before, ¬ DetachesAfter options.escapeChar relay.typed before

/-- A relay that has been detached: the text ends with its first escape sequence, and what is
before it was forwarded. -/
structure Relay.Detached (options : InteractOptions) (relay : Relay) : Prop where
  detached : relay.detach = true
  typed_eq : relay.typed = relay.forwarded ++ [options.escapeChar, detachByte]
  detaches_iff : ∀ before, DetachesAfter options.escapeChar relay.typed before ↔
    before = relay.forwarded

theorem running_init : ({} : Relay).Running options where
  attached := rfl
  forwarded_held := rfl
  atLineStart_iff := by simp [StartsLine]
  escapeSeen_iff := by simp
  not_detaches := by simp [DetachesAfter]

/-- An escape character that is not a line end, right behind the start of a line, ends a text
whose next byte does not start one. -/
theorem not_startsLine_escape {typed before : Bytes}
    (hescape : isLineEnd options.escapeChar = false)
    (htyped : typed = before ++ [options.escapeChar]) : ¬ StartsLine typed := by
  rw [htyped, startsLine_concat, hescape]
  exact Bool.false_ne_true

/-- A byte that is forwarded leaves the relay running when everything before it has been
forwarded and it neither completes an escape sequence nor begins one. -/
theorem running_forwardByte {relay : Relay} {c : UInt8} (hattached : relay.detach = false)
    (hreleased : relay.escapeSeen = false) (htyped : relay.typed = relay.forwarded ++ [c])
    (hnone : ∀ before, ¬ DetachesAfter options.escapeChar relay.typed before)
    (hbegin : c = options.escapeChar → ¬ StartsLine relay.forwarded) :
    (forwardByte c relay).Running options where
  attached := hattached
  forwarded_held := by
    have hheld : (forwardByte c relay).held options = [] := by
      simp [Relay.held, forwardByte, hreleased]
    rw [hheld, List.append_nil]
    exact htyped.symm
  atLineStart_iff := by
    change isLineEnd c = true ↔ StartsLine relay.typed
    rw [htyped, startsLine_concat]
  escapeSeen_iff := by
    change relay.escapeSeen = true ↔ ∃ before, relay.typed = _ ∧ _
    rw [hreleased, htyped]
    refine iff_of_false Bool.false_ne_true ?_
    rintro ⟨before, hlast, hstart⟩
    obtain ⟨hforwarded, hc⟩ := List.append_singleton_inj.mp hlast
    exact hbegin hc (hforwarded ▸ hstart)
  not_detaches := hnone

/-- A sequence that the next byte completes was pending before it. -/
theorem Relay.Running.complete {relay : Relay} (hrun : relay.Running options) {c : UInt8}
    {before : Bytes} (h : DetachesAfter options.escapeChar (relay.typed ++ [c]) before) :
    c = detachByte ∧ relay.escapeSeen = true := by
  rcases detachesAfter_concat.mp h with hold | ⟨hc, htyped, hstart⟩
  · exact absurd hold (hrun.not_detaches before)
  · exact ⟨hc, hrun.escapeSeen_iff.mpr ⟨before, htyped, hstart⟩⟩

/-- The dot after a pending escape character detaches the relay, and neither was forwarded. -/
theorem Relay.Running.detached {relay : Relay} (hrun : relay.Running options)
    (hseen : relay.escapeSeen = true) :
    { relay with
      typed := relay.typed ++ [detachByte], escapeSeen := false
      detach := true : Relay }.Detached options := by
  obtain ⟨before, htyped, hstart⟩ := hrun.escapeSeen_iff.mp hseen
  have hforwarded : relay.forwarded ++ [options.escapeChar] = relay.typed := by
    simpa [Relay.held, hseen] using hrun.forwarded_held
  have hbefore : before = relay.forwarded :=
    (List.append_singleton_inj.mp (htyped.symm.trans hforwarded.symm)).1
  refine ⟨rfl, ?_, fun other ↦ ?_⟩
  · change relay.typed ++ [detachByte] = relay.forwarded ++ [options.escapeChar, detachByte]
    rw [← hforwarded, List.append_assoc]
    rfl
  · change DetachesAfter options.escapeChar (relay.typed ++ [detachByte]) other ↔
      other = relay.forwarded
    rw [detachesAfter_concat, or_iff_right (hrun.not_detaches other), ← hforwarded,
      List.append_singleton_inj]
    exact ⟨fun h ↦ h.2.1.1.symm, fun h ↦ ⟨rfl, ⟨h.symm, rfl⟩, h ▸ hbefore ▸ hstart⟩⟩

/-- The escape character at the start of a line is held back. -/
theorem Relay.Running.hold (hescape : isLineEnd options.escapeChar = false) {relay : Relay}
    (hrun : relay.Running options) (hstart : relay.atLineStart = true)
    (hseen : ¬ relay.escapeSeen = true) :
    { relay with
      typed := relay.typed ++ [options.escapeChar], escapeSeen := true
      atLineStart := false : Relay }.Running options := by
  have hforwarded : relay.forwarded = relay.typed := by
    simpa [Relay.held, hseen] using hrun.forwarded_held
  refine ⟨hrun.attached, ?_, ?_, ?_, fun other hdetach ↦ hseen (hrun.complete hdetach).2⟩
  · change relay.forwarded ++ [options.escapeChar] = relay.typed ++ [options.escapeChar]
    rw [hforwarded]
  · change false = true ↔ StartsLine (relay.typed ++ [options.escapeChar])
    exact iff_of_false Bool.false_ne_true (not_startsLine_escape hescape rfl)
  · change true = true ↔ ∃ before, relay.typed ++ [options.escapeChar] = _ ∧ _
    exact iff_of_true rfl ⟨relay.typed, rfl, hrun.atLineStart_iff.mp hstart⟩

/-- A byte typed at a running relay with escapes: it goes on, or it is detached by its first
escape sequence. The cases are those of the code: the byte ends the sequence, shows that there
was none, is held back, or has nothing to do with one. -/
theorem typeByte_running (henabled : options.enableEscape = true)
    (hescape : isLineEnd options.escapeChar = false) {relay : Relay}
    (hrun : relay.Running options) (c : UInt8) :
    (typeByte options c relay).Running options ∨ (typeByte options c relay).Detached options := by
  have hheld := hrun.forwarded_held
  unfold typeByte
  dsimp only
  simp only [henabled, Bool.true_and, Bool.and_eq_true, beq_iff_eq]
  by_cases hseen : relay.escapeSeen = true
  · obtain ⟨before, htyped, -⟩ := hrun.escapeSeen_iff.mp hseen
    have hmiddle := not_startsLine_escape hescape htyped
    have hforwarded : relay.forwarded ++ [options.escapeChar] = relay.typed := by
      simpa [Relay.held, hseen] using hheld
    rw [if_neg fun h ↦ hmiddle (hrun.atLineStart_iff.mp h.1), if_pos hseen]
    by_cases hdot : c = detachByte
    · rw [if_pos hdot, hdot]
      exact .inr (hrun.detached hseen)
    · rw [if_neg hdot]
      refine .inl (running_forwardByte hrun.attached rfl ?_ ?_ ?_)
      · exact congrArg (· ++ [c]) hforwarded.symm
      · exact fun other hdetach ↦ hdot (hrun.complete hdetach).1
      · intro _
        change ¬ StartsLine (relay.forwarded ++ [options.escapeChar])
        rw [hforwarded]
        exact hmiddle
  · have hforwarded : relay.forwarded = relay.typed := by
      simpa [Relay.held, hseen] using hheld
    by_cases hbegin : relay.atLineStart = true ∧ c = options.escapeChar
    · rw [if_pos hbegin]
      obtain ⟨hstart, rfl⟩ := hbegin
      exact .inl (hrun.hold hescape hstart hseen)
    · rw [if_neg hbegin, if_neg hseen]
      refine .inl (running_forwardByte hrun.attached (Bool.eq_false_iff.mpr hseen) ?_ ?_ ?_)
      · exact congrArg (· ++ [c]) hforwarded.symm
      · exact fun other hdetach ↦ hseen (hrun.complete hdetach).2
      · intro hc hstart
        change StartsLine relay.forwarded at hstart
        rw [hforwarded] at hstart
        exact hbegin ⟨hrun.atLineStart_iff.mpr hstart, hc⟩

/-! ### Rounds of the relay -/

/-- The sizes requested and what was shown are no part of what is relayed. -/
theorem running_shown {relay : Relay} (h : relay.Running options)
    (shown : List (Stream × Bytes)) (resizes : List PtySize) :
    { relay with shown, resizes : Relay }.Running options :=
  ⟨h.attached, h.forwarded_held, h.atLineStart_iff, h.escapeSeen_iff, h.not_detaches⟩

theorem showOutput_eq (stream : Stream) (arrival : Arrival) (relay : Relay) :
    ∃ shown, relay.showOutput stream arrival = { relay with shown } := by
  unfold Relay.showOutput
  split
  · exact ⟨_, rfl⟩
  · exact ⟨relay.shown, rfl⟩

/-- What a round does before it looks at the terminal. -/
theorem relayRound_eq (options : InteractOptions) (round : RelayRound) (before : Relay) :
    ∃ shown resizes, relayRound options round before =
      match round.input with
      | .nothing => (true, { before with shown, resizes })
      | .ended => (false, { before with shown, resizes })
      | .byte c => (true, typeByte options c { before with shown, resizes }) := by
  obtain ⟨stdout, hstdout⟩ := showOutput_eq .stdout round.stdout (before.resize round.resized)
  obtain ⟨shown, hstderr⟩ := showOutput_eq .stderr round.stderr
    { before.resize round.resized with shown := stdout }
  refine ⟨shown, before.resizes ++ round.resized.toList, ?_⟩
  unfold relayRound
  rw [hstdout, hstderr]
  rfl

theorem relayRound_running (henabled : options.enableEscape = true)
    (hescape : isLineEnd options.escapeChar = false) {relay : Relay}
    (hrun : relay.Running options) (round : RelayRound) :
    (relayRound options round relay).2.Running options ∨
      (relayRound options round relay).2.Detached options := by
  obtain ⟨shown, resizes, hround⟩ := relayRound_eq options round relay
  have hrest := running_shown hrun shown resizes
  rw [hround]
  cases round.input with
  | nothing => exact .inl hrest
  | ended => exact .inl hrest
  | byte c => exact typeByte_running henabled hescape hrest c

/-- The relay stays on its text through every run of its loop; once detached, it is left. -/
theorem relayLoop_running (henabled : options.enableEscape = true)
    (hescape : isLineEnd options.escapeChar = false) (rounds : List RelayRound) {relay : Relay}
    (hrun : relay.Running options ∨ relay.Detached options) :
    (relayLoop options rounds relay).2.Running options ∨
      (relayLoop options rounds relay).2.Detached options := by
  induction rounds generalizing relay with
  | nil => exact hrun
  | cons round rounds ih =>
    unfold relayLoop
    split_ifs with hend
    · exact hrun
    · have hattached : relay.detach = false := by
        by_contra hdetach
        simp [hdetach] at hend
      have hstill : relay.Running options :=
        hrun.resolve_right fun h ↦ by simp [h.detached] at hattached
      have hnext := relayRound_running henabled hescape hstill round
      rcases hround : relayRound options round relay with ⟨goesOn, after⟩
      rw [hround] at hnext
      cases goesOn with
      | false => exact hnext
      | true => exact ih hnext

/-- The bytes the user has ready in these rounds. -/
def typedIn (rounds : List RelayRound) : Bytes :=
  rounds.filterMap fun round ↦
    match round.input with
    | .byte c => some c
    | _ => none

theorem typeByte_typed (c : UInt8) (relay : Relay) :
    (typeByte options c relay).typed = relay.typed ++ [c] := by
  unfold typeByte
  dsimp only
  split_ifs <;> rfl

theorem relayRound_typed (options : InteractOptions) (round : RelayRound) (relay : Relay) :
    (relayRound options round relay).2.typed = relay.typed ++ typedIn [round] := by
  obtain ⟨shown, resizes, hround⟩ := relayRound_eq options round relay
  rw [hround]
  unfold typedIn
  cases hinput : round.input with
  | nothing => simp [hinput]
  | ended => simp [hinput]
  | byte c => simp [hinput, typeByte_typed]

/-- The relay reads the terminal's bytes in their order, and all of them until it is left. -/
theorem relayLoop_typed (options : InteractOptions) (rounds : List RelayRound)
    (relay : Relay) :
    ∃ unread, relay.typed ++ typedIn rounds =
        (relayLoop options rounds relay).2.typed ++ unread ∧
      ((relayLoop options rounds relay).1 = false → unread = []) := by
  induction rounds generalizing relay with
  | nil => exact ⟨[], rfl, fun _ ↦ rfl⟩
  | cons round rounds ih =>
    have hcons : typedIn (round :: rounds) = typedIn [round] ++ typedIn rounds :=
      List.filterMap_append (l := [round])
    have hround := relayRound_typed options round relay
    unfold relayLoop
    split_ifs with hend
    · exact ⟨typedIn (round :: rounds), rfl, fun h ↦ nomatch h⟩
    · rw [hcons, ← List.append_assoc, ← hround]
      rcases relayRound options round relay with ⟨goesOn, after⟩
      cases goesOn with
      | false => exact ⟨typedIn rounds, rfl, fun h ↦ nomatch h⟩
      | true => exact ih after

/-! ### The session at the terminal -/

/-- With escapes enabled and an escape character that ends no line, at every point of a relay
its text is what it forwarded and holds; it is detached exactly when there is an escape
sequence in the text, which is then the first one, at the end, and not forwarded. -/
theorem tryInteract_forwards (henabled : options.enableEscape = true)
    (hnewline : options.escapeChar ≠ 0x0a) (hreturn : options.escapeChar ≠ 0x0d)
    (rounds : List RelayRound) :
    (relayLoop options rounds {}).2.typed <+: typedIn rounds ∧
    ((relayLoop options rounds {}).1 = false →
      (relayLoop options rounds {}).2.typed = typedIn rounds) ∧
    ((relayLoop options rounds {}).2.detach = false →
      (relayLoop options rounds {}).2.forwarded ++ (relayLoop options rounds {}).2.held options =
        (relayLoop options rounds {}).2.typed) ∧
    ((relayLoop options rounds {}).2.detach = true ↔
      ∃ before, DetachesAfter options.escapeChar (relayLoop options rounds {}).2.typed before) ∧
    ((relayLoop options rounds {}).2.detach = true →
      (relayLoop options rounds {}).2.typed =
          (relayLoop options rounds {}).2.forwarded ++ [options.escapeChar, detachByte] ∧
        ∀ before, DetachesAfter options.escapeChar (relayLoop options rounds {}).2.typed before →
          before = (relayLoop options rounds {}).2.forwarded) := by
  have hescape : isLineEnd options.escapeChar = false := by simp [isLineEnd, hnewline, hreturn]
  obtain ⟨unread, htyped, hall⟩ := relayLoop_typed options rounds {}
  rw [show ({} : Relay).typed ++ typedIn rounds = typedIn rounds from rfl] at htyped
  have hstate := relayLoop_running henabled hescape rounds (.inl running_init)
  generalize relayLoop options rounds {} = left at hstate htyped hall ⊢
  refine ⟨⟨unread, htyped.symm⟩, fun h ↦ ?_, ?_⟩
  · rw [htyped, hall h, List.append_nil]
  · rcases hstate with hrun | hdetached
    · refine ⟨fun _ ↦ hrun.forwarded_held, iff_of_false ?_ ?_, fun h ↦ ?_⟩
      · simp [hrun.attached]
      · rintro ⟨before, hdetaches⟩
        exact hrun.not_detaches before hdetaches
      · simp [hrun.attached] at h
    · refine ⟨fun h ↦ ?_, iff_of_true hdetached.detached ?_, fun _ ↦ ?_⟩
      · simp [hdetached.detached] at h
      · exact ⟨_, (hdetached.detaches_iff _).mpr rfl⟩
      · exact ⟨hdetached.typed_eq, fun before h ↦ (hdetached.detaches_iff before).mp h⟩

theorem tryInteract_forwards_escape :
    (relayLoop {} [{ input := .byte 0x7e }, { input := .byte 0x2e }] {}).2.typed =
      (relayLoop {} [{ input := .byte 0x7e }, { input := .byte 0x2e }] {}).2.forwarded ++
        [0x7e, detachByte] :=
  ((@tryInteract_forwards {} rfl (by decide) (by decide)
    [{ input := .byte 0x7e }, { input := .byte 0x2e }]).2.2.2.2 (by decide)).1

/-- Twice the escape character and a dot is text. -/
example : (relayLoop {} ([0x7e, 0x7e, 0x2e].map fun c ↦ { input := .byte c }) {}).2.forwarded =
    [0x7e, 0x7e, 0x2e] := by decide

/-- The session at the terminal never ends in an error; detached, it has no exit state. -/
theorem tryInteract_eq_ok {rounds : List RelayRound} {native : Bool} {peer : ℕ → DrainRound}
    {reported : Option NativeExit} {result : Result ExitState} {relay : Relay}
    (h : tryInteract options rounds native peer reported = some (result, relay)) :
    result = .ok (if relay.detach then {} else exitState native reported) := by
  unfold tryInteract at h
  split at h
  · exact nomatch h
  · split_ifs at h with hdetach
    · obtain ⟨rfl, rfl⟩ := Prod.mk.inj (Option.some.inj h)
      rw [if_pos hdetach]
    · have hexit : (tryWaitExit native 2000 peer reported []).1 =
          if native = false then
            .error { code := .ssh .invalidHandle, operation := "Channel::try_wait_exit" }
          else .ok (exitState native reported) := by
        cases native <;> rfl
      rw [hexit] at h
      split_ifs at h <;>
      · obtain ⟨rfl, rfl⟩ := Prod.mk.inj (Option.some.inj h)
        rw [if_neg hdetach]

end LibSshpp.Exec
