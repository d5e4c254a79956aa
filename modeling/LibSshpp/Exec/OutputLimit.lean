import LibSshpp.Exec.Output
import LibSshpp.Program.CappedPieces

/-!
The limits on collected output: `max_output` of `Exec` and the limit of
`Channel::try_read_all`. Both are only compared with what has been collected, the one
before and the other after a piece of any length is appended, so they are kept exactly
where the pieces libssh hands over happen to break at them.
-/

set_option autoImplicit false
set_option relaxedAutoImplicit false

namespace LibSshpp.Exec

open Program

/-! ### What libssh hands over -/

/-- The piece that one stream's turn brings, if it asks for one, and the channel then. -/
def Channel.handOver (channel : Channel) (stream : Stream) (turn : Turn) :
    List Bytes × Channel :=
  let channel := channel.receiveMany turn.beforePoll
  if turn.pollError.isSome = true ∨ channel.buffer stream = [] then ([], channel)
  else
    let channel := channel.receiveMany turn.beforeRead
    match turn.read with
    | .error _ => ([], channel)
    | .ok count => ([(channel.buffer stream).take (min count chunkSize)],
        channel.consume stream (min count chunkSize))

/-- The pieces of both streams in their order, up to the round in which the end of the
channel is reported and neither stream had anything. -/
def Channel.pieces (channel : Channel) : List Round → List (Stream × Bytes)
  | [] => []
  | round :: rounds =>
    let out := channel.handOver .stdout round.stdout
    let err := out.2.handOver .stderr round.stderr
    let after := err.2.receiveMany round.beforeEof
    if after.isEof round.eofReported = true ∧ out.1 = [] ∧ err.1 = [] then []
    else out.1.map (fun piece ↦ (.stdout, piece)) ++ err.1.map (fun piece ↦ (.stderr, piece)) ++
      after.pieces rounds

/-- The pieces that go to a destination. -/
def piecesFor (exec : Options) (target : Stream) (pieces : List (Stream × Bytes)) : List Bytes :=
  (pieces.filter fun piece ↦ destination exec piece.1 = target).map Prod.snd

theorem piecesFor_append (exec : Options) (target : Stream) (pieces more : List (Stream × Bytes)) :
    piecesFor exec target (pieces ++ more) =
      piecesFor exec target pieces ++ piecesFor exec target more := by
  rw [piecesFor, List.filter_append, List.map_append]
  rfl

theorem piecesFor_stream (exec : Options) (target stream : Stream) (pieces : List Bytes) :
    piecesFor exec target (pieces.map fun piece ↦ (stream, piece)) =
      if destination exec stream = target then pieces else [] := by
  unfold piecesFor
  induction pieces with
  | nil => rw [ite_self]; rfl
  | cons piece pieces ih =>
    rw [List.map_cons]
    by_cases htarget : destination exec stream = target
    · rw [if_pos htarget] at ih ⊢
      rw [List.filter_cons_of_pos (by simpa using htarget), List.map_cons, ih]
    · rw [if_neg htarget] at ih ⊢
      rw [List.filter_cons_of_neg (by simpa using htarget), ih]

/-! ### `Exec::try_run` -/

section Loop

variable {exec : Options}

/-- A delivered piece is kept at its destination while that is below the maximum. -/
theorem text_deliver (hsink : exec.sink = false) (stream target : Stream) (data : Bytes)
    (state : Running) :
    (deliver exec stream data state).result.text target =
      if destination exec stream = target then
        keepBelow exec.maxOutput (state.result.text target) data
      else state.result.text target := by
  rw [deliver, if_neg (by rw [hsink]; exact Bool.false_ne_true), keepBelow]
  by_cases htarget : destination exec stream = target
  · rw [if_pos htarget, htarget]
    split_ifs with hroom
    · show (state.result.append data target).text target = _
      rw [ExecResult.text_append, if_pos rfl]
    · exact ExecResult.text_truncate _ _ _
  · rw [if_neg htarget]
    split_ifs with hroom
    · show (state.result.append data _).text target = _
      rw [ExecResult.text_append, if_neg htarget, List.append_nil]
    · exact ExecResult.text_truncate _ _ _

theorem deliver_channel (stream : Stream) (data : Bytes) (state : Running) :
    (deliver exec stream data state).channel = state.channel := by
  unfold deliver
  split_ifs <;> rfl

/-- A stream that has nothing, or cannot be polled, is left alone. -/
theorem drain_quiet {stream : Stream} {turn : Turn} {state : Running}
    (h : turn.pollError.isSome = true ∨
      (state.channel.receiveMany turn.beforePoll).buffer stream = []) :
    ∃ avail, nothingThere avail = true ∧ drain exec stream turn state =
      (.ok avail, { state with channel := state.channel.receiveMany turn.beforePoll }) := by
  cases hpoll : turn.pollError with
  | some last =>
    exact ⟨_, rfl, drain_of_pollError hpoll stream state⟩
  | none =>
    have hempty : (state.channel.receiveMany turn.beforePoll).buffer stream = [] :=
      h.resolve_left (by rw [hpoll]; exact Bool.false_ne_true)
    refine ⟨.ok 0, rfl, ?_⟩
    rw [drain, bind_of_eq (by rw [tryBytesAvailable, hpoll, hempty])]
    rfl

/-- A stream that has something is read, and what the read brings is delivered. -/
theorem drain_read {stream : Stream} {turn : Turn} {state : Running}
    (hpoll : turn.pollError = none)
    (hsome : (state.channel.receiveMany turn.beforePoll).buffer stream ≠ []) :
    drain exec stream turn state =
      let polled := state.channel.receiveMany turn.beforePoll
      let channel := polled.receiveMany turn.beforeRead
      match turn.read with
      | .error last =>
        (.error (makeErrorInfo last "ssh_channel_read_timeout" .channelClosed),
          { state with channel })
      | .ok count =>
        let data := (channel.buffer stream).take (min count chunkSize)
        let consumed := { state with channel := channel.consume stream (min count chunkSize) }
        (.ok (.ok (polled.buffer stream).length),
          if data ≠ [] then deliver exec stream data consumed else consumed) := by
  obtain ⟨first, rest, hbuffer⟩ := List.exists_cons_of_ne_nil hsome
  rw [drain, bind_of_eq (by rw [tryBytesAvailable, hpoll])]
  dsimp only
  rw [hbuffer, List.length_cons]
  cases hread : turn.read with
  | error last =>
    dsimp only
    rw [bind_of_eq (by rw [tryReadSome, hread])]
    rfl
  | ok count =>
    dsimp only
    rw [bind_of_eq (by rw [tryReadSome, hread])]
    dsimp only
    split_ifs <;> rfl

/-- What one stream's part of a round does, unless its read fails: the texts take what
libssh hands over. -/
theorem drain_spec (hsink : exec.sink = false) {stream : Stream} {turn : Turn}
    {state after : Running} {avail : Result ℕ}
    (h : drain exec stream turn state = (.ok avail, after)) :
    after.channel = (state.channel.handOver stream turn).2 ∧
      (nothingThere avail = true ↔ (state.channel.handOver stream turn).1 = []) ∧
      ∀ target, after.result.text target =
        (if destination exec stream = target then (state.channel.handOver stream turn).1
          else []).foldl (keepBelow exec.maxOutput) (state.result.text target) := by
  unfold Channel.handOver
  by_cases hquiet : turn.pollError.isSome = true ∨
      (state.channel.receiveMany turn.beforePoll).buffer stream = []
  · obtain ⟨quiet, hnothing, hdrain⟩ := drain_quiet hquiet
    obtain ⟨hvalue, rfl⟩ := Prod.mk.inj (hdrain.symm.trans h)
    obtain rfl := Except.ok.inj hvalue
    rw [if_pos hquiet]
    refine ⟨rfl, iff_of_true hnothing rfl, fun target ↦ ?_⟩
    rw [ite_self]
    rfl
  · rw [if_neg hquiet]
    obtain ⟨hpoll, hsome⟩ := not_or.mp hquiet
    rw [drain_read (by simpa using hpoll) hsome] at h
    cases hread : turn.read with
    | error last =>
      rw [hread] at h
      exact nomatch congrArg Prod.fst h
    | ok count =>
      rw [hread] at h
      dsimp only at h ⊢
      obtain ⟨hvalue, rfl⟩ := Prod.mk.inj h
      obtain rfl := Except.ok.inj hvalue
      refine ⟨?_, iff_of_false ?_ (List.cons_ne_nil _ _), fun target ↦ ?_⟩
      · split_ifs
        · exact deliver_channel _ _ _
        · rfl
      · simpa [nothingThere] using hsome
      · split_ifs with hdata htarget htarget
        · rw [text_deliver hsink, if_pos htarget]
          rfl
        · rw [text_deliver hsink, if_neg htarget]
          rfl
        · have hnone := not_ne_iff.mp hdata
          rw [hnone, List.foldl_cons, keepBelow_nil]
          rfl
        · rfl

/-- A loop that ends well ends in its first round, because the end of the channel is reported
and nothing was there, or in the rounds behind it. -/
theorem loop_cons_ok {round : Round} {rounds : List Round} {state after : Running}
    (h : loop exec (round :: rounds) state = (some (.ok ()), after)) :
    ∃ availOut middle availErr read,
      drain exec .stdout round.stdout state = (.ok availOut, middle) ∧
        drain exec .stderr round.stderr middle = (.ok availErr, read) ∧
        let next := { read with channel := read.channel.receiveMany round.beforeEof }
        let ends := next.channel.isEof round.eofReported = true ∧ nothingThere availOut = true ∧
          nothingThere availErr = true
        ends ∧ after = next ∨ ¬ ends ∧ loop exec rounds next = (some (.ok ()), after) := by
  obtain ⟨outOutcome, middle, hout⟩ :
      ∃ outcome after, drain exec .stdout round.stdout state = (outcome, after) := ⟨_, _, rfl⟩
  rw [loop, bind_of_eq hout] at h
  cases outOutcome with
  | error info => cases congrArg Prod.fst h
  | ok availOut =>
    obtain ⟨errOutcome, read, herr⟩ :
        ∃ outcome after, drain exec .stderr round.stderr middle = (outcome, after) := ⟨_, _, rfl⟩
    dsimp only at h
    rw [bind_of_eq herr] at h
    cases errOutcome with
    | error info => cases congrArg Prod.fst h
    | ok availErr =>
      refine ⟨availOut, middle, availErr, read, hout, herr, ?_⟩
      change (if _ then _ else _ : StateM Running (Option (Result Unit))) _ = _ at h
      dsimp only at h ⊢
      rw [← and_assoc, ← Bool.and_eq_true, ← Bool.and_eq_true]
      split_ifs at h with hends hlate
      · exact .inl ⟨hends, (congrArg Prod.snd h).symm⟩
      · cases congrArg Prod.fst h
      · exact .inr ⟨hends, h⟩

/-- When the loop ends well, each text has taken the pieces for it that still found it
below the maximum. -/
theorem loop_text (hsink : exec.sink = false) {rounds : List Round} {state after : Running}
    (h : loop exec rounds state = (some (.ok ()), after)) (target : Stream) :
    after.result.text target =
      (piecesFor exec target (state.channel.pieces rounds)).foldl (keepBelow exec.maxOutput)
        (state.result.text target) := by
  induction rounds generalizing state with
  | nil => exact nomatch congrArg Prod.fst h
  | cons round rounds ih =>
    obtain ⟨availOut, middle, availErr, read, hout, herr, hround⟩ := loop_cons_ok h
    obtain ⟨hchannelOut, hnothingOut, htextOut⟩ := drain_spec hsink hout
    obtain ⟨hchannelErr, hnothingErr, htextErr⟩ := drain_spec hsink herr
    rw [hchannelOut] at hchannelErr hnothingErr htextErr
    have htext : read.result.text target =
        (piecesFor exec target
          ((state.channel.handOver .stdout round.stdout).1.map (fun piece ↦ (.stdout, piece)) ++
            ((state.channel.handOver .stdout round.stdout).2.handOver .stderr
              round.stderr).1.map fun piece ↦ (.stderr, piece))).foldl
          (keepBelow exec.maxOutput) (state.result.text target) := by
      rw [piecesFor_append, piecesFor_stream, piecesFor_stream, List.foldl_append, ← htextOut,
        ← htextErr]
    rw [Channel.pieces, ← hchannelErr]
    -- what `is_eof` and the two polls said is what the pieces end at
    dsimp only at hround
    rw [hnothingOut, hnothingErr] at hround
    rcases hround with ⟨hends, rfl⟩ | ⟨hends, hrest⟩
    · rw [if_pos hends]
      rw [hends.2.1, hends.2.2] at htext
      exact htext
    · rw [if_neg hends, piecesFor_append, List.foldl_append, ← htext]
      exact ih hrest

/-- With a sink the loop leaves the result alone. -/
theorem drain_keeps_result (hsink : exec.sink = true) (result : ExecResult) (stream : Stream)
    (turn : Turn) : Keeps (fun state ↦ state.result = result) (drain exec stream turn) := by
  refine Triple.bind (show Keeps _ (tryBytesAvailable stream turn) from fun _ h ↦ h) fun avail ↦ ?_
  match avail with
  | .error info => exact Keeps.pure _
  | .ok 0 => exact Keeps.pure _
  | .ok (available + 1) =>
    have hread : Triple (fun state ↦ state.result = result) (tryReadSome stream turn)
        fun _ state ↦ state.result = result := by
      intro state h
      unfold tryReadSome
      cases turn.read with
      | error last => exact h
      | ok count => exact h
    refine hread.bindExcept (fun info state h ↦ h) fun data state h ↦ ?_
    dsimp only
    split_ifs
    · show (deliver exec stream data state).result = result
      rw [deliver, if_pos hsink]
      exact h
    · exact h

theorem loop_keeps_result (hsink : exec.sink = true) (result : ExecResult) (rounds : List Round) :
    Keeps (fun state ↦ state.result = result) (loop exec rounds) := by
  induction rounds with
  | nil => exact Keeps.pure _
  | cons round rounds ih =>
    rw [loop]
    refine (drain_keeps_result hsink result .stdout round.stdout).bindExcept
      (fun info state h ↦ h) fun availOut ↦ ?_
    refine (drain_keeps_result hsink result .stderr round.stderr).bindExcept
      (fun info state h ↦ h) fun availErr ↦ ?_
    refine Keeps.bind (fun state h ↦ h) fun _ state h ↦ ?_
    rw [bind_of_eq (show (get : StateM Running Running) state = (state, state) from rfl)]
    split_ifs
    · exact h
    · exact h
    · exact ih state h

end Loop

theorem tryRun_text {exec : Options} {outcomes : Outcomes} {packets : List Packet}
    {rounds : List Round} {result : ExecResult} (hsink : exec.sink = false)
    (h : tryRun exec outcomes packets rounds = some (.ok result)) (target : Stream) :
    result.text target =
      (piecesFor exec target (Channel.pieces { incoming := packets } rounds)).foldl
        (keepBelow exec.maxOutput) [] := by
  obtain ⟨state, hloop, hstdout, hstderr, -, -⟩ := tryRun_ok h
  have htext := loop_text hsink hloop target
  cases target with
  | stdout => exact hstdout.trans htext
  | stderr => exact hstderr.trans htext

theorem tryRun_text_of_sink {exec : Options} {outcomes : Outcomes} {packets : List Packet}
    {rounds : List Round} {result : ExecResult} (hsink : exec.sink = true)
    (h : tryRun exec outcomes packets rounds = some (.ok result)) (target : Stream) :
    result.text target = [] := by
  obtain ⟨state, hloop, hstdout, hstderr, -, -⟩ := tryRun_ok h
  have hkept := loop_keeps_result hsink {} rounds { channel := { incoming := packets } } rfl
  rw [hloop] at hkept
  dsimp only at hkept
  rw [hkept] at hstdout hstderr
  cases target with
  | stdout => exact hstdout
  | stderr => exact hstderr

/-! ### `Channel::try_read_all` -/

/-- The loop of `try_read_all`, if the reads that `ssh_channel_read_timeout` answers
decide it. -/
def readAll (limit : ℕ) (result : Bytes) : List (Except SshError Bytes) → Option (Result Bytes)
  | [] => none
  | .error last :: _ =>
    some (.error (makeErrorInfo last "ssh_channel_read_timeout" .channelClosed))
  | .ok data :: reads =>
    let chunk := data.take chunkSize
    if chunk = [] then some (.ok result)
    else if limit ≤ (result ++ chunk).length then some (.ok (result ++ chunk))
    else readAll limit (result ++ chunk) reads

/-- `Channel::try_read_all`; a channel without its libssh channel fails its first read. -/
def tryReadAll (native : Bool) (limit : ℕ) (reads : List (Except SshError Bytes)) :
    Option (Result Bytes) :=
  if native then readAll limit [] reads
  else some (.error { code := .ssh .invalidHandle, operation := "Channel::try_read_some" })

/-- The pieces that reads bring before the end of file. -/
def piecesRead : List (Except SshError Bytes) → List Bytes
  | .ok data :: reads =>
    if data.take chunkSize = [] then [] else data.take chunkSize :: piecesRead reads
  | _ => []

theorem readAll_text {limit : ℕ} {reads : List (Except SshError Bytes)} {result text : Bytes}
    (h : readAll limit result reads = some (.ok text)) :
    text = collectUntil limit result (piecesRead reads) := by
  induction reads generalizing result with
  | nil => exact nomatch h
  | cons read reads ih =>
    cases read with
    | error last => exact nomatch Option.some.inj h
    | ok data =>
      rw [readAll] at h
      rw [piecesRead]
      by_cases hend : data.take chunkSize = []
      · rw [if_pos hend] at h ⊢
        exact (Except.ok.inj (Option.some.inj h)).symm
      · rw [if_neg hend] at h ⊢
        rw [collectUntil]
        split_ifs at h ⊢
        · exact (Except.ok.inj (Option.some.inj h)).symm
        · exact ih h

theorem tryReadAll_text {native : Bool} {limit : ℕ} {reads : List (Except SshError Bytes)}
    {text : Bytes} (h : tryReadAll native limit reads = some (.ok text)) :
    text = collectUntil limit [] (piecesRead reads) := by
  unfold tryReadAll at h
  split_ifs at h
  · exact readAll_text h
  · exact nomatch Option.some.inj h

theorem piecesRead_ne_nil {reads : List (Except SshError Bytes)} {piece : Bytes}
    (h : piece ∈ piecesRead reads) : piece ≠ [] := by
  induction reads with
  | nil => exact nomatch h
  | cons read reads ih =>
    cases read with
    | error last => exact nomatch h
    | ok data =>
      rw [piecesRead] at h
      split_ifs at h with hend
      · exact nomatch h
      · rcases List.mem_cons.mp h with rfl | hrest
        · exact hend
        · exact ih hrest

theorem piecesRead_le_iff (limit : ℕ) (reads : List (Except SshError Bytes)) :
    (collectUntil limit [] (piecesRead reads)).length ≤ limit ↔
      Fits limit (piecesRead reads) ∧ (limit = 0 → piecesRead reads = []) := by
  rcases Nat.eq_zero_or_pos limit with rfl | hpos
  · cases hpieces : piecesRead reads with
    | nil => exact iff_of_true le_rfl ⟨fits_nil 0, fun _ ↦ rfl⟩
    | cons piece pieces =>
      have hpiece : piece ≠ [] := piecesRead_ne_nil (hpieces ▸ List.mem_cons_self)
      refine iff_of_false (fun hle ↦ hpiece ?_) fun h ↦ List.cons_ne_nil _ _ (h.2 rfl)
      rw [collectUntil, if_pos (Nat.zero_le _), List.nil_append] at hle
      exact List.length_eq_zero_iff.mp (Nat.le_zero.mp hle)
  · rw [collectUntil_le_iff (piecesRead reads) hpos, and_iff_left fun hzero ↦ absurd hzero hpos.ne']
    rfl

/-! ### The limits -/

/-- Every text of a successful `try_run` keeps to `max_output` exactly if it has a sink or
the pieces for each text fit the maximum; and a successful `try_read_all` keeps to its
limit exactly if the pieces fit it, none for the limit zero. -/
theorem collected_le_limit_iff (exec : Options) (outcomes : Outcomes) (packets : List Packet)
    (rounds : List Round) (native : Bool) (limit : ℕ) (reads : List (Except SshError Bytes)) :
    (∀ result, tryRun exec outcomes packets rounds = some (.ok result) →
      ((∀ target, (result.text target).length ≤ exec.maxOutput) ↔
        exec.sink = true ∨ ∀ target, Fits exec.maxOutput
          (piecesFor exec target (Channel.pieces { incoming := packets } rounds)))) ∧
    (∀ text, tryReadAll native limit reads = some (.ok text) →
      (text.length ≤ limit ↔
        Fits limit (piecesRead reads) ∧ (limit = 0 → piecesRead reads = []))) := by
  constructor
  · intro result hrun
    cases hsink : exec.sink with
    | true =>
      refine iff_of_true (fun target ↦ ?_) (.inl rfl)
      rw [tryRun_text_of_sink hsink hrun]
      exact Nat.zero_le _
    | false =>
      rw [or_iff_right Bool.false_ne_true]
      refine forall_congr' fun target ↦ ?_
      rw [tryRun_text hsink hrun, foldl_keepBelow_le_iff _ (Nat.zero_le _)]
      rfl
  · intro text hread
    rw [tryReadAll_text hread, piecesRead_le_iff]

/-- Four bytes that arrive as one piece, before the loop starts. -/
def wholePiece : List Packet := [.data .stdout (ascii "abcd"), .eof]

def wholeRounds : List Round := [{ stdout := { beforePoll := 2 } }, {}]

/-- A limit of four is kept. -/
theorem collected_le_limit_iff_wholePiece :
    (∀ target, (ExecResult.text { stdoutText := ascii "abcd" } target).length ≤ 4) ∧
      (ascii "abcd").length ≤ 4 := by
  have hlimits := collected_le_limit_iff { maxOutput := 4 } {} wholePiece wholeRounds true 4
    [.ok (ascii "abcd")]
  constructor
  · refine (hlimits.1 _ (by decide +kernel)).mpr (.inr fun target ↦ .inl ?_)
    cases target <;> decide +kernel
  · exact (hlimits.2 _ (by decide +kernel)).mpr ⟨.inl (by decide +kernel), by decide⟩

/-- A limit of three is not: the piece is kept whole. -/
theorem wholePiece_exceeds_limit :
    (∃ result, tryRun { maxOutput := 3 } {} wholePiece wholeRounds = some (.ok result) ∧
      3 < result.stdoutText.length) ∧
    ∃ text, tryReadAll true 3 [.ok (ascii "abcd")] = some (.ok text) ∧ 3 < text.length :=
  ⟨⟨{ stdoutText := ascii "abcd" }, by decide +kernel, by decide⟩,
    ⟨ascii "abcd", by decide +kernel, by decide⟩⟩

end LibSshpp.Exec
