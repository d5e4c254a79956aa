import LibSshpp.Sftp.ReadAhead

/-!
`File::WriteBehind`: writes with several requests in flight, and its synchronous
fallback. A request is sent for the offset libssh has reached and its outcome is
seen when it is waited for, in a later write or in the flush. The server performs
the requests in an order of its own.
-/

set_option autoImplicit false
set_option relaxedAutoImplicit false

namespace LibSshpp.Sftp

open Program

/-- What libssh sees of a write request: it was sent, or waited for with the
status it failed with, if it did. -/
inductive AioEvent
  | begun (write : Write UInt8)
  | done (write : Write UInt8) (failure : Option ℤ)
  deriving DecidableEq, Repr

/-- `File::WriteBehind` with its file and what has happened to its requests. -/
structure WriteBehind where
  file : RemoteFile
  chunk : ℕ
  depth : ℕ
  inflight : List (Write UInt8) := []
  trace : List AioEvent := []
  deriving DecidableEq, Repr

namespace WriteBehind

def new (file : RemoteFile) (chunk depth : ℕ) : WriteBehind where
  file
  chunk := if chunk ≠ 0 then chunk else defaultChunk
  depth := if depth ≠ 0 then depth else defaultDepth

/-- How many of `requested` bytes `sftp_aio_begin_write` accepts. -/
def acceptCount (file : RemoteFile) (requested : ℕ) : ℕ :=
  match file.accepts with
  | count :: _ => min requested (max 1 count)
  | [] => min requested file.maxLength

/-- `sftp_aio_begin_write`: a request for as many bytes as it accepts, at the file's
offset, which moves on by that count. -/
def beginWrite (data : Bytes) : StateM WriteBehind (Except ℤ ℕ) := fun writer ↦
  let file := writer.file
  match file.unsendable.head? with
  | some (some status) =>
    (.error status, { writer with file := { file with unsendable := file.unsendable.tail } })
  | _ =>
    let count := acceptCount file data.length
    let write : Write UInt8 := { offset := file.offset, data := data.take count }
    (.ok count, { writer with
      file := { file with
        offset := file.offset + count
        unsendable := file.unsendable.tail
        accepts := file.accepts.tail }
      inflight := writer.inflight ++ [write]
      trace := writer.trace ++ [.begun write] })

/-- The status of a failed request; a write that succeeds was performed in full. -/
def failure : Option Reply → Option ℤ
  | some (.failure status) => some status
  | _ => none

/-- `drain_one`: waits for the oldest request. It is called with one in flight. -/
def drainOne : StateM WriteBehind (Result Unit) := fun writer ↦
  match writer.inflight with
  | [] => (.ok (), writer)
  | write :: inflight =>
    let outcome := failure writer.file.replies.head?
    let writer := { writer with
      file := { writer.file with replies := writer.file.replies.tail }
      inflight
      trace := writer.trace ++ [.done write outcome] }
    match outcome with
    | some status => (.error (makeSftpErrorInfo status {} "sftp_aio_wait_write"), writer)
    | none => (.ok (), writer)

def drainLoop : ℕ → StateM WriteBehind (Result Unit)
  | 0 => pure (.ok ())
  | rounds + 1 => do
    match ← drainOne with
    | .error info => pure (.error info)
    | .ok () => drainLoop rounds

/-- The inner loop of `try_write`: every round shortens the queue by one until it
has fewer than `depth` requests. -/
def makeRoom : StateM WriteBehind (Result Unit) := fun writer ↦
  drainLoop (writer.inflight.length + 1 - writer.depth) writer

/-- A request for a chunk of the data. -/
def submitChunk (data : Bytes) : StateM WriteBehind (Except ℤ ℕ) := fun writer ↦
  beginWrite (data.take writer.chunk) writer

/-- The outer loop of `try_write`, with the data that is left. A request takes at
least one byte, so as many rounds as bytes are enough. -/
def writeLoop : ℕ → Bytes → StateM WriteBehind (Result Unit)
  | _, [] => pure (.ok ())
  | 0, _ :: _ => pure (.ok ())
  | rounds + 1, byte :: rest => do
    match ← makeRoom with
    | .error info => pure (.error info)
    | .ok () =>
      match ← submitChunk (byte :: rest) with
      | .error status => pure (.error (makeSftpErrorInfo status {} "sftp_aio_begin_write"))
      | .ok count => writeLoop rounds ((byte :: rest).drop count)

/-- `try_write` over `sftp_aio`. -/
def tryWrite (data : Bytes) : StateM WriteBehind (Result Unit) := fun writer ↦
  if writer.file.isOpen = false then
    (.error { code := .ssh .invalidHandle, operation := "File::WriteBehind::try_write" }, writer)
  else writeLoop data.length data writer

/-- The loop of `try_flush`, which ends with the first error that was set. -/
def flushLoop : ℕ → ErrorInfo → StateM WriteBehind ErrorInfo
  | 0, firstError => pure firstError
  | rounds + 1, firstError => do
    match ← drainOne with
    | .error info => flushLoop rounds (if firstError.isSet then firstError else info)
    | .ok () => flushLoop rounds firstError

/-- `try_flush` over `sftp_aio`. -/
def tryFlush : StateM WriteBehind (Result Unit) := fun writer ↦
  let (firstError, writer) := flushLoop writer.inflight.length { code := .ssh .ok } writer
  if firstError.isSet then (.error firstError, writer) else (.ok (), writer)

/-- The loop of `try_write` where libssh has no `sftp_aio`. A round takes at least
one byte, since the chunk is not empty. -/
def writeLoopSync (chunk : ℕ) : ℕ → Bytes → StateM RemoteFile (Result Unit)
  | _, [] => pure (.ok ())
  | 0, _ :: _ => pure (.ok ())
  | rounds + 1, byte :: rest => do
    match ← RemoteFile.tryWriteAll ((byte :: rest).take chunk) with
    | .error info => pure (.error info)
    | .ok () => writeLoopSync chunk rounds ((byte :: rest).drop chunk)

def tryWriteSync (data : Bytes) : StateM WriteBehind (Result Unit) := fun writer ↦
  if writer.file.isOpen = false then
    (.error { code := .ssh .invalidHandle, operation := "File::WriteBehind::try_write" }, writer)
  else
    let (result, file) := writeLoopSync writer.chunk data.length data writer.file
    (result, { writer with file })

/-- There `try_flush` has nothing to do. -/
def tryFlushSync : StateM WriteBehind (Result Unit) := pure (.ok ())

/-- The results of a sequence of writes and the final flush. The caller may go on
after an error. -/
def run (write : Bytes → StateM WriteBehind (Result Unit))
    (flush : StateM WriteBehind (Result Unit)) :
    List Bytes → StateM WriteBehind (List (Result Unit))
  | [] => do
    let result ← flush
    pure [result]
  | data :: writes => do
    let result ← write data
    let results ← run write flush writes
    pure (result :: results)

/-! ### What the trace says -/

/-- The writes submitted so far. -/
def begun (trace : List AioEvent) : List (Write UInt8) :=
  trace.filterMap fun
    | .begun write => some write
    | .done _ _ => none

/-- The writes waited for so far, with the status of those that failed. -/
def done (trace : List AioEvent) : List (Write UInt8 × Option ℤ) :=
  trace.filterMap fun
    | .begun _ => none
    | .done write failure => some (write, failure)

/-- No write of these failed. -/
def Clean (finished : List (Write UInt8 × Option ℤ)) : Prop :=
  ∀ entry ∈ finished, entry.2 = none

/-- The content once the server has performed the writes it was sent, in the order
it chose. -/
def contentAfter (writer : WriteBehind) (order : List (Write UInt8)) : Bytes :=
  applyAll 0 order writer.file.content

@[simp] theorem begun_concat_begun (trace : List AioEvent) (write : Write UInt8) :
    begun (trace ++ [.begun write]) = begun trace ++ [write] := by
  simp [begun]

@[simp] theorem begun_concat_done (trace : List AioEvent) (write : Write UInt8)
    (failure : Option ℤ) : begun (trace ++ [.done write failure]) = begun trace := by
  simp [begun]

@[simp] theorem done_concat_begun (trace : List AioEvent) (write : Write UInt8) :
    done (trace ++ [.begun write]) = done trace := by
  simp [done]

@[simp] theorem done_concat_done (trace : List AioEvent) (write : Write UInt8)
    (failure : Option ℤ) :
    done (trace ++ [.done write failure]) = done trace ++ [(write, failure)] := by
  simp [done]

/-- At every point of the trace at most `depth` writes are in flight. -/
def Bounded (depth : ℕ) (trace : List AioEvent) : Prop :=
  ∀ past, past <+: trace → (begun past).length ≤ (done past).length + depth

theorem Bounded.concat {depth : ℕ} {trace : List AioEvent} {event : AioEvent}
    (h : Bounded depth trace)
    (hlast : (begun (trace ++ [event])).length ≤ (done (trace ++ [event])).length + depth) :
    Bounded depth (trace ++ [event]) := by
  intro past hpast
  rcases List.prefix_concat_iff.mp hpast with rfl | hearlier
  · exact hlast
  · exact h past hearlier

/-! ### The invariant -/

/-- The writes waited for are the first ones submitted and the others are in
flight; all of them follow one another from `start` to the file's offset; no more
than `depth` are ever in flight; and a failure to come has a status. -/
structure Sound (start : ℕ) (writer : WriteBehind) : Prop where
  chunk_pos : 0 < writer.chunk
  depth_pos : 0 < writer.depth
  queue : (done writer.trace).map Prod.fst ++ writer.inflight = begun writer.trace
  contiguous : Contiguous start (begun writer.trace) writer.file.offset
  bounded : Bounded writer.depth writer.trace
  status : ∀ status, .failure status ∈ writer.file.replies → status ≠ 0

/-- Between two states the writer submitted writes of `accepted` and waited for
`finished`. -/
structure Ran (before : WriteBehind) (accepted : Bytes)
    (finished : List (Write UInt8 × Option ℤ)) (after : WriteBehind) : Prop where
  submitted : written (begun after.trace) = written (begun before.trace) ++ accepted
  waited : done after.trace = done before.trace ++ finished
  depth : after.depth = before.depth
  content : after.file.content = before.file.content

/-- The state after a call is sound, and if the call succeeds it submitted all its
data and waited for no failure. -/
def Accounts (start : ℕ) (before : WriteBehind) (data : Bytes) (succeeds : Prop)
    (after : WriteBehind) : Prop :=
  Sound start after ∧ ∃ accepted finished, Ran before accepted finished after ∧
    (succeeds → accepted = data ∧ Clean finished)

theorem Accounts.refl {start : ℕ} {writer : WriteBehind} (h : Sound start writer)
    (succeeds : Prop) : Accounts start writer [] succeeds writer :=
  ⟨h, [], [], ⟨by simp, by simp, rfl, rfl⟩, fun _ ↦ ⟨rfl, fun _ hentry ↦ by simp at hentry⟩⟩

theorem Accounts.trans {start : ℕ} {before middle after : WriteBehind} {first second : Bytes}
    {succeeds succeeds' : Prop} (hfirst : Accounts start before first succeeds middle)
    (hsecond : Accounts start middle second succeeds' after) :
    Accounts start before (first ++ second) (succeeds ∧ succeeds') after := by
  obtain ⟨-, accepted, finished, hran, hclean⟩ := hfirst
  obtain ⟨hsound, accepted', finished', hran', hclean'⟩ := hsecond
  refine ⟨hsound, accepted ++ accepted', finished ++ finished', ⟨?_, ?_, ?_, ?_⟩, ?_⟩
  · rw [hran'.submitted, hran.submitted, List.append_assoc]
  · rw [hran'.waited, hran.waited, List.append_assoc]
  · rw [hran'.depth, hran.depth]
  · rw [hran'.content, hran.content]
  · rintro ⟨hok, hok'⟩
    obtain ⟨rfl, hfinished⟩ := hclean hok
    obtain ⟨rfl, hfinished'⟩ := hclean' hok'
    refine ⟨rfl, fun entry hentry ↦ ?_⟩
    exact (List.mem_append.mp hentry).elim (hfinished entry) (hfinished' entry)

theorem Accounts.mono {start : ℕ} {before after : WriteBehind} {data : Bytes}
    {succeeds succeeds' : Prop} (h : Accounts start before data succeeds after)
    (hmono : succeeds' → succeeds) : Accounts start before data succeeds' after := by
  obtain ⟨hsound, accepted, finished, hran, hclean⟩ := h
  exact ⟨hsound, accepted, finished, hran, fun hok ↦ hclean (hmono hok)⟩

/-- A call that does not succeed promises nothing about its data. -/
theorem Accounts.of_failure {start : ℕ} {before after : WriteBehind} {data : Bytes}
    {succeeds succeeds' : Prop} (h : Accounts start before data succeeds after)
    (hfails : ¬ succeeds') (data' : Bytes) : Accounts start before data' succeeds' after := by
  obtain ⟨hsound, accepted, finished, hran, -⟩ := h
  exact ⟨hsound, accepted, finished, hran, fun hok ↦ absurd hok hfails⟩

/-! ### Waiting -/

/-- The state after the oldest request was waited for. -/
def waitedFor (writer : WriteBehind) (write : Write UInt8) (inflight : List (Write UInt8)) :
    WriteBehind :=
  { writer with
    file := { writer.file with replies := writer.file.replies.tail }
    inflight
    trace := writer.trace ++ [.done write (failure writer.file.replies.head?)] }

theorem drainOne_cons {writer : WriteBehind} {write : Write UInt8} {rest : List (Write UInt8)}
    (hinflight : writer.inflight = write :: rest) :
    drainOne writer =
      (match failure writer.file.replies.head? with
        | some status => .error (makeSftpErrorInfo status {} "sftp_aio_wait_write")
        | none => .ok (), writer.waitedFor write rest) := by
  unfold drainOne
  rw [hinflight]
  cases hfailure : failure writer.file.replies.head? <;> simp only [waitedFor, hfailure]

theorem failure_eq_some {replies : List Reply} {status : ℤ}
    (h : failure replies.head? = some status) : .failure status ∈ replies := by
  cases hreply : replies.head? with
  | none =>
    rw [hreply] at h
    exact nomatch h
  | some reply =>
    cases reply with
    | bytes count =>
      rw [hreply] at h
      exact nomatch h
    | failure status' =>
      rw [hreply] at h
      obtain rfl := Option.some.inj h
      exact List.mem_of_mem_head? (by rw [hreply]; rfl)

theorem waitedFor_sound {start : ℕ} {writer : WriteBehind} {write : Write UInt8}
    {rest : List (Write UInt8)} (h : Sound start writer)
    (hinflight : writer.inflight = write :: rest) : Sound start (writer.waitedFor write rest) where
  chunk_pos := h.chunk_pos
  depth_pos := h.depth_pos
  queue := by
    rw [waitedFor, done_concat_done, begun_concat_done, ← h.queue, hinflight, List.map_append,
      List.append_assoc]
    rfl
  contiguous := by
    rw [waitedFor, begun_concat_done]
    exact h.contiguous
  bounded := by
    have hlast := h.bounded writer.trace List.prefix_rfl
    refine h.bounded.concat ?_
    rw [begun_concat_done, done_concat_done, List.length_append]
    omega
  status := fun status hstatus ↦ h.status status (List.mem_of_mem_tail hstatus)

/-- Waiting for a request shortens the queue, and fails when the request did. -/
theorem drainOne_accounts {start : ℕ} {writer after : WriteBehind} {result : Result Unit}
    (h : Sound start writer) (hinflight : writer.inflight ≠ [])
    (hdrain : drainOne writer = (result, after)) :
    Accounts start writer [] (result = .ok ()) after ∧
      after.inflight.length + 1 = writer.inflight.length ∧
      ∀ info, result = .error info → info.isSet = true := by
  obtain ⟨write, rest, hcons⟩ := List.exists_cons_of_ne_nil hinflight
  rw [drainOne_cons hcons] at hdrain
  obtain ⟨hresult, rfl⟩ := Prod.mk.inj hdrain
  refine ⟨⟨waitedFor_sound h hcons, [], [(write, failure writer.file.replies.head?)],
    ⟨?_, done_concat_done _ _ _, rfl, rfl⟩, fun hok ↦ ⟨rfl, ?_⟩⟩, ?_, fun info hinfo ↦ ?_⟩
  · rw [waitedFor, begun_concat_done, List.append_nil]
  · intro entry hentry
    obtain rfl := List.mem_singleton.mp hentry
    cases hfailure : failure writer.file.replies.head? with
    | none => rfl
    | some status =>
      rw [hfailure, hok] at hresult
      exact nomatch hresult
  · rw [hcons]
    rfl
  · cases hfailure : failure writer.file.replies.head? with
    | none =>
      rw [hfailure, hinfo] at hresult
      exact nomatch hresult
    | some status =>
      rw [hfailure, hinfo] at hresult
      obtain rfl := Except.error.inj hresult
      exact (makeSftpErrorInfo_isSet _ _ _).mpr (h.status status (failure_eq_some hfailure))

theorem drainLoop_accounts {start : ℕ} (rounds : ℕ) :
    ∀ {writer after : WriteBehind} {result : Result Unit}, Sound start writer →
      rounds ≤ writer.inflight.length → drainLoop rounds writer = (result, after) →
        Accounts start writer [] (result = .ok ()) after ∧
          (result = .ok () → after.inflight.length + rounds = writer.inflight.length) := by
  induction rounds with
  | zero =>
    intro writer after result h _ hrun
    obtain ⟨rfl, rfl⟩ := Prod.mk.inj hrun
    exact ⟨Accounts.refl h _, fun _ ↦ rfl⟩
  | succ rounds ih =>
    intro writer after result h hrounds hrun
    have hne : writer.inflight ≠ [] := by
      rw [← List.length_pos_iff]
      omega
    rcases hdrain : drainOne writer with ⟨info | _, middle⟩ <;>
      obtain ⟨haccounts, hlength, -⟩ := drainOne_accounts h hne hdrain
    · have hstop : drainLoop (rounds + 1) writer = (.error info, middle) := bind_of_eq hdrain
      obtain ⟨rfl, rfl⟩ := Prod.mk.inj (hstop.symm.trans hrun)
      exact ⟨haccounts, fun hok ↦ nomatch hok⟩
    · have hgo : drainLoop (rounds + 1) writer = drainLoop rounds middle := bind_of_eq hdrain
      obtain ⟨hlater, hshorter⟩ := ih haccounts.1 (by omega) (hgo.symm.trans hrun)
      refine ⟨(haccounts.trans hlater).mono fun hok ↦ ⟨rfl, hok⟩, fun hok ↦ ?_⟩
      have hrest := hshorter hok
      omega

/-- After the inner loop there is room for one more request. -/
theorem makeRoom_accounts {start : ℕ} {writer after : WriteBehind} {result : Result Unit}
    (h : Sound start writer) (hrun : makeRoom writer = (result, after)) :
    Accounts start writer [] (result = .ok ()) after ∧
      (result = .ok () → after.inflight.length < after.depth) := by
  have hpos := h.depth_pos
  obtain ⟨haccounts, hlength⟩ :=
    drainLoop_accounts (writer.inflight.length + 1 - writer.depth) h (by omega) hrun
  refine ⟨haccounts, fun hok ↦ ?_⟩
  obtain ⟨-, accepted, finished, hran, -⟩ := haccounts
  have hshorter := hlength hok
  have hdepth := hran.depth
  omega

/-! ### Submitting -/

theorem acceptCount_pos (file : RemoteFile) {requested : ℕ} (h : 0 < requested) :
    0 < acceptCount file requested := by
  have hmax := file.maxLength_pos
  unfold acceptCount
  split <;> omega

theorem acceptCount_le (file : RemoteFile) (requested : ℕ) :
    acceptCount file requested ≤ requested := by
  unfold acceptCount
  split <;> omega

/-- The state after a request for some data was sent. -/
def sent (writer : WriteBehind) (data : Bytes) : WriteBehind :=
  { writer with
    file := { writer.file with
      offset := writer.file.offset + data.length
      unsendable := writer.file.unsendable.tail
      accepts := writer.file.accepts.tail }
    inflight := writer.inflight ++ [{ offset := writer.file.offset, data }]
    trace := writer.trace ++ [.begun { offset := writer.file.offset, data }] }

theorem sent_accounts {start : ℕ} {writer : WriteBehind} (h : Sound start writer)
    (hroom : writer.inflight.length < writer.depth) (data : Bytes) :
    Accounts start writer data True (writer.sent data) := by
  refine ⟨⟨h.chunk_pos, h.depth_pos, ?_, ?_, ?_, h.status⟩, data, [], ⟨?_, ?_, rfl, rfl⟩,
    fun _ ↦ ⟨rfl, fun _ hentry ↦ absurd hentry List.not_mem_nil⟩⟩
  · rw [sent, done_concat_begun, begun_concat_begun, ← List.append_assoc, h.queue]
  · rw [sent, begun_concat_begun]
    exact h.contiguous.append ⟨rfl, rfl⟩
  · refine h.bounded.concat ?_
    have hlength := congrArg List.length h.queue
    rw [List.length_append, List.length_map] at hlength
    rw [begun_concat_begun, done_concat_begun, List.length_append, List.length_singleton]
    omega
  · rw [sent, begun_concat_begun, written_append]
    simp [written]
  · rw [sent, done_concat_begun, List.append_nil]

theorem beginWrite_ok {writer after : WriteBehind} {data : Bytes} {count : ℕ} (hdata : data ≠ [])
    (hrun : beginWrite data writer = (.ok count, after)) :
    0 < count ∧ count ≤ data.length ∧ after = writer.sent (data.take count) := by
  unfold beginWrite at hrun
  dsimp only at hrun
  split at hrun
  · exact nomatch hrun
  · obtain ⟨hcount, rfl⟩ := Prod.mk.inj hrun
    obtain rfl := Except.ok.inj hcount
    have hle := acceptCount_le writer.file data.length
    refine ⟨acceptCount_pos writer.file (List.length_pos_iff.mpr hdata), hle, ?_⟩
    rw [sent, List.length_take_of_le hle]

theorem beginWrite_error {start : ℕ} {writer after : WriteBehind} {data : Bytes} {status : ℤ}
    (h : Sound start writer) (hrun : beginWrite data writer = (.error status, after)) :
    Accounts start writer [] False after := by
  unfold beginWrite at hrun
  dsimp only at hrun
  split at hrun
  · obtain ⟨-, rfl⟩ := Prod.mk.inj hrun
    refine ⟨⟨h.chunk_pos, h.depth_pos, h.queue, h.contiguous, h.bounded, h.status⟩, [], [],
      ⟨?_, ?_, rfl, rfl⟩, fun hok ↦ hok.elim⟩
    · rw [List.append_nil]
    · rw [List.append_nil]
  · exact nomatch hrun

/-- A request that is sent is for a non-empty prefix of the data. -/
theorem submitChunk_ok {writer after : WriteBehind} {data : Bytes} {count : ℕ} (hdata : data ≠ [])
    (hchunk : 0 < writer.chunk) (hrun : submitChunk data writer = (.ok count, after)) :
    0 < count ∧ count ≤ data.length ∧ after = writer.sent (data.take count) := by
  have hne : data.take writer.chunk ≠ [] := by
    rw [Ne, List.take_eq_nil_iff]
    exact fun h ↦ h.elim hchunk.ne' hdata
  obtain ⟨hpos, hle, hafter⟩ := beginWrite_ok hne hrun
  rw [List.length_take] at hle
  rw [List.take_take, Nat.min_eq_left (by omega)] at hafter
  exact ⟨hpos, by omega, hafter⟩

/-- The outer loop submits all the data or fails. The induction is on the rounds,
with the data that is left at most as long. -/
theorem writeLoop_accounts {start : ℕ} (rounds : ℕ) :
    ∀ {data : Bytes} {writer after : WriteBehind} {result : Result Unit}, Sound start writer →
      data.length ≤ rounds → writeLoop rounds data writer = (result, after) →
        Accounts start writer data (result = .ok ()) after := by
  induction rounds with
  | zero =>
    intro data writer after result h hdata hrun
    obtain rfl : data = [] := List.length_eq_zero_iff.mp (by omega)
    obtain ⟨rfl, rfl⟩ := Prod.mk.inj hrun
    exact Accounts.refl h _
  | succ rounds ih =>
    intro data writer after result h hdata hrun
    rcases data with _ | ⟨byte, rest⟩
    · obtain ⟨rfl, rfl⟩ := Prod.mk.inj hrun
      exact Accounts.refl h _
    rcases hroom : makeRoom writer with ⟨info | _, middle⟩ <;>
      obtain ⟨hwaited, hfree⟩ := makeRoom_accounts h hroom
    · have hstop : writeLoop (rounds + 1) (byte :: rest) writer = (.error info, middle) :=
        bind_of_eq hroom
      obtain ⟨rfl, rfl⟩ := Prod.mk.inj (hstop.symm.trans hrun)
      exact hwaited.of_failure (fun hok ↦ nomatch hok) _
    · rcases hsubmit : submitChunk (byte :: rest) middle with ⟨status | count, last⟩
      · have hstop : writeLoop (rounds + 1) (byte :: rest) writer =
            (.error (makeSftpErrorInfo status {} "sftp_aio_begin_write"), last) :=
          (bind_of_eq hroom).trans (bind_of_eq hsubmit)
        obtain ⟨rfl, rfl⟩ := Prod.mk.inj (hstop.symm.trans hrun)
        exact (hwaited.trans (beginWrite_error hwaited.1 hsubmit)).of_failure
          (fun hok ↦ nomatch hok) _
      · have hgo : writeLoop (rounds + 1) (byte :: rest) writer =
            writeLoop rounds ((byte :: rest).drop count) last :=
          (bind_of_eq hroom).trans (bind_of_eq hsubmit)
        obtain ⟨hpos, hle, rfl⟩ := submitChunk_ok (by simp) hwaited.1.chunk_pos hsubmit
        have hsent := sent_accounts hwaited.1 (hfree rfl) ((byte :: rest).take count)
        have hlater := ih hsent.1 (by
          rw [List.length_drop]
          omega) (hgo.symm.trans hrun)
        have hall := hwaited.trans (hsent.trans hlater)
        rw [List.nil_append, List.take_append_drop] at hall
        exact hall.mono fun hok ↦ ⟨rfl, trivial, hok⟩

theorem tryWrite_accounts {start : ℕ} {data : Bytes} {writer after : WriteBehind}
    {result : Result Unit} (h : Sound start writer)
    (hrun : tryWrite data writer = (result, after)) :
    Accounts start writer data (result = .ok ()) after := by
  by_cases hopen : writer.file.isOpen = false
  · rw [tryWrite, if_pos hopen] at hrun
    obtain ⟨rfl, rfl⟩ := Prod.mk.inj hrun
    exact (Accounts.refl h True).of_failure (fun hok ↦ nomatch hok) data
  · rw [tryWrite, if_neg hopen] at hrun
    exact writeLoop_accounts data.length h le_rfl hrun

/-! ### Flushing -/

/-- The loop waits for every request, and a failure of one of them, or one seen
before, is an error that is set. -/
theorem flushLoop_accounts {start : ℕ} (rounds : ℕ) :
    ∀ {firstError lastError : ErrorInfo} {writer after : WriteBehind}, Sound start writer →
      rounds = writer.inflight.length →
      flushLoop rounds firstError writer = (lastError, after) →
        Accounts start writer [] (lastError.isSet = false) after ∧ after.inflight = [] ∧
          (firstError.isSet = true → lastError.isSet = true) := by
  induction rounds with
  | zero =>
    intro firstError lastError writer after h hrounds hrun
    obtain ⟨rfl, rfl⟩ := Prod.mk.inj hrun
    exact ⟨Accounts.refl h _, List.length_eq_zero_iff.mp hrounds.symm, fun hset ↦ hset⟩
  | succ rounds ih =>
    intro firstError lastError writer after h hrounds hrun
    have hne : writer.inflight ≠ [] := by
      rw [← List.length_pos_iff]
      omega
    rcases hdrain : drainOne writer with ⟨info | _, middle⟩ <;>
      obtain ⟨haccounts, hlength, hset⟩ := drainOne_accounts h hne hdrain
    · have hgo : flushLoop (rounds + 1) firstError writer =
          flushLoop rounds (if firstError.isSet then firstError else info) middle :=
        bind_of_eq hdrain
      obtain ⟨hlater, hempty, hkept⟩ := ih haccounts.1 (by omega) (hgo.symm.trans hrun)
      have hlast : lastError.isSet = true := by
        apply hkept
        split
        · assumption
        · exact hset info rfl
      exact ⟨(haccounts.trans hlater).of_failure (by simp [hlast]) _, hempty, fun _ ↦ hlast⟩
    · have hgo : flushLoop (rounds + 1) firstError writer = flushLoop rounds firstError middle :=
        bind_of_eq hdrain
      obtain ⟨hlater, hempty, hkept⟩ := ih haccounts.1 (by omega) (hgo.symm.trans hrun)
      exact ⟨(haccounts.trans hlater).mono fun hok ↦ ⟨rfl, hok⟩, hempty, hkept⟩

theorem tryFlush_accounts {start : ℕ} {writer after : WriteBehind} {result : Result Unit}
    (h : Sound start writer) (hrun : tryFlush writer = (result, after)) :
    Accounts start writer [] (result = .ok ()) after ∧ after.inflight = [] := by
  rcases hloop : flushLoop writer.inflight.length { code := .ssh .ok } writer with
    ⟨lastError, drained⟩
  obtain ⟨haccounts, hempty, -⟩ := flushLoop_accounts _ h rfl hloop
  rw [tryFlush, hloop] at hrun
  dsimp only at hrun
  by_cases hset : lastError.isSet = true
  · rw [if_pos hset] at hrun
    obtain ⟨rfl, rfl⟩ := Prod.mk.inj hrun
    exact ⟨haccounts.of_failure (fun hok ↦ nomatch hok) _, hempty⟩
  · rw [if_neg hset] at hrun
    obtain ⟨rfl, rfl⟩ := Prod.mk.inj hrun
    exact ⟨haccounts.mono fun _ ↦ by simpa using hset, hempty⟩

/-! ### Whole runs -/

theorem run_accounts {start : ℕ} (writes : List Bytes) :
    ∀ {writer after : WriteBehind} {results : List (Result Unit)}, Sound start writer →
      run tryWrite tryFlush writes writer = (results, after) →
        Accounts start writer writes.flatten (∀ result ∈ results, result = .ok ()) after ∧
          after.inflight = [] := by
  induction writes with
  | nil =>
    intro writer after results h hrun
    rcases hflush : tryFlush writer with ⟨result, flushed⟩
    have hend : run tryWrite tryFlush [] writer = ([result], flushed) := bind_of_eq hflush
    obtain ⟨rfl, rfl⟩ := Prod.mk.inj (hend.symm.trans hrun)
    obtain ⟨haccounts, hempty⟩ := tryFlush_accounts h hflush
    exact ⟨haccounts.mono fun hok ↦ hok result List.mem_cons_self, hempty⟩
  | cons data writes ih =>
    intro writer after results h hrun
    rcases hwrite : tryWrite data writer with ⟨result, middle⟩
    have haccounts := tryWrite_accounts h hwrite
    rcases hrest : run tryWrite tryFlush writes middle with ⟨later, last⟩
    have hend : run tryWrite tryFlush (data :: writes) writer = (result :: later, last) :=
      (bind_of_eq hwrite).trans (bind_of_eq hrest)
    obtain ⟨rfl, rfl⟩ := Prod.mk.inj (hend.symm.trans hrun)
    obtain ⟨hlater, hempty⟩ := ih haccounts.1 hrest
    refine ⟨(haccounts.trans hlater).mono fun hok ↦ ⟨?_, fun other hother ↦ ?_⟩, hempty⟩
    · exact hok result List.mem_cons_self
    · exact hok other (List.mem_cons_of_mem _ hother)

theorem new_sound (file : RemoteFile) (chunk depth : ℕ)
    (hstatus : ∀ status, .failure status ∈ file.replies → status ≠ 0) :
    Sound file.offset (new file chunk depth) where
  chunk_pos := orDefault_pos (by decide)
  depth_pos := orDefault_pos (by decide)
  queue := rfl
  contiguous := rfl
  bounded := by
    intro past hpast
    rw [List.prefix_nil.mp hpast]
    exact Nat.zero_le _
  status := hstatus

/-! ### The synchronous fallback -/

theorem writeLoopSync_ok {chunk : ℕ} (hchunk : 0 < chunk) (rounds : ℕ) :
    ∀ {data : Bytes} {file after : RemoteFile}, data.length ≤ rounds →
      writeLoopSync chunk rounds data file = (.ok (), after) → file.Took data after := by
  induction rounds with
  | zero =>
    intro data file after hdata hrun
    obtain rfl : data = [] := List.length_eq_zero_iff.mp (by omega)
    obtain ⟨-, rfl⟩ := Prod.mk.inj hrun
    exact RemoteFile.accepts_tryWrite.refl file
  | succ rounds ih =>
    intro data file after hdata hrun
    rcases data with _ | ⟨byte, rest⟩
    · obtain ⟨-, rfl⟩ := Prod.mk.inj hrun
      exact RemoteFile.accepts_tryWrite.refl file
    rcases hwrite : RemoteFile.tryWriteAll ((byte :: rest).take chunk) file with
      ⟨info | _, middle⟩
    · have hstop : writeLoopSync chunk (rounds + 1) (byte :: rest) file = (.error info, middle) :=
        bind_of_eq hwrite
      exact nomatch congrArg Prod.fst (hstop.symm.trans hrun)
    · have hgo : writeLoopSync chunk (rounds + 1) (byte :: rest) file =
          writeLoopSync chunk rounds ((byte :: rest).drop chunk) middle := bind_of_eq hwrite
      have hlater := ih (by
        rw [List.length_drop]
        omega) (hgo.symm.trans hrun)
      have hall := RemoteFile.accepts_tryWrite.trans (RemoteFile.tryWriteAll_ok hwrite) hlater
      rwa [List.take_append_drop] at hall

theorem tryWriteSync_ok {data : Bytes} {writer after : WriteBehind} (hchunk : 0 < writer.chunk)
    (hrun : tryWriteSync data writer = (.ok (), after)) :
    writer.file.Took data after.file ∧ after.chunk = writer.chunk := by
  by_cases hopen : writer.file.isOpen = false
  · rw [tryWriteSync, if_pos hopen] at hrun
    exact nomatch congrArg Prod.fst hrun
  · rw [tryWriteSync, if_neg hopen] at hrun
    obtain ⟨hresult, rfl⟩ := Prod.mk.inj hrun
    exact ⟨writeLoopSync_ok hchunk data.length le_rfl (Prod.ext hresult rfl), rfl⟩

theorem run_sync_ok (writes : List Bytes) :
    ∀ {writer after : WriteBehind} {results : List (Result Unit)}, 0 < writer.chunk →
      run tryWriteSync tryFlushSync writes writer = (results, after) →
        (∀ result ∈ results, result = .ok ()) → writer.file.Took writes.flatten after.file := by
  induction writes with
  | nil =>
    intro writer after results _ hrun _
    obtain ⟨-, rfl⟩ := Prod.mk.inj hrun
    exact RemoteFile.accepts_tryWrite.refl writer.file
  | cons data writes ih =>
    intro writer after results hchunk hrun hok
    rcases hwrite : tryWriteSync data writer with ⟨result, middle⟩
    rcases hrest : run tryWriteSync tryFlushSync writes middle with ⟨later, last⟩
    have hend : run tryWriteSync tryFlushSync (data :: writes) writer = (result :: later, last) :=
      (bind_of_eq hwrite).trans (bind_of_eq hrest)
    obtain ⟨rfl, rfl⟩ := Prod.mk.inj (hend.symm.trans hrun)
    obtain rfl := hok result List.mem_cons_self
    obtain ⟨htook, hkept⟩ := tryWriteSync_ok hchunk hwrite
    exact RemoteFile.accepts_tryWrite.trans htook (ih (by omega) hrest fun other hother ↦
      hok other (List.mem_cons_of_mem _ hother))

/-! ### A writer from its construction on -/

/-- At every point of a run at most `depth` writes are in flight, and at its end all
of them were waited for. When every call succeeded, no write failed and the server
holds the data from the starting offset on, whatever the order it performed the
writes in, as a run of the fallback that succeeds leaves it. When a write failed,
some call returned an error. Assumes: a failed request leaves a status that is not
zero. -/
theorem writeBehind_run (file : RemoteFile) (chunk depth : ℕ) (writes : List Bytes)
    (hstatus : ∀ status, .failure status ∈ file.replies → status ≠ 0) :
    let outcome := run tryWrite tryFlush writes (new file chunk depth)
    let trace := outcome.2.trace
    Bounded (new file chunk depth).depth trace ∧
      (done trace).map Prod.fst = begun trace ∧
      ((∀ result ∈ outcome.1, result = .ok ()) → Clean (done trace) ∧
        ∀ order, (begun trace).Perm order →
          outcome.2.contentAfter order = patch 0 file.content file.offset writes.flatten ∧
          ∀ replies,
            let fallback :=
              run tryWriteSync tryFlushSync writes (new { file with replies } chunk depth)
            (∀ result ∈ fallback.1, result = .ok ()) →
              outcome.2.contentAfter order = fallback.2.file.content) ∧
      ((∃ entry ∈ done trace, entry.2 ≠ none) → ∃ info, .error info ∈ outcome.1) := by
  intro outcome trace
  have hnew := new_sound file chunk depth hstatus
  obtain ⟨⟨hsound, accepted, finished, hran, hclean⟩, hempty⟩ :=
    run_accounts writes hnew (show _ = (outcome.1, outcome.2) from rfl)
  have hdone : done trace = finished := hran.waited
  have hwritten : written (begun trace) = accepted := hran.submitted
  have hbounded := hsound.bounded
  rw [hran.depth] at hbounded
  have hqueue := hsound.queue
  rw [hempty, List.append_nil] at hqueue
  refine ⟨hbounded, hqueue, fun hok ↦ ?_, fun ⟨entry, hentry, hfailed⟩ ↦ ?_⟩
  · obtain ⟨rfl, hfinished⟩ := hclean hok
    refine ⟨hdone ▸ hfinished, fun order horder ↦ ?_⟩
    have hcontent : outcome.2.contentAfter order =
        patch 0 file.content file.offset writes.flatten := by
      rw [contentAfter, hsound.contiguous.applyAll_perm horder, hwritten, hran.content]
      rfl
    refine ⟨hcontent, ?_⟩
    intro replies fallback hfallback
    have htook : (new { file with replies } chunk depth).file.Took writes.flatten
        fallback.2.file :=
      run_sync_ok writes hnew.chunk_pos (show _ = (fallback.1, fallback.2) from rfl) hfallback
    rw [hcontent, htook.content]
    rfl
  · by_contra hnone
    refine hfailed ((hclean fun result hresult ↦ ?_).2 entry (hdone ▸ hentry))
    cases result with
    | ok _ => rfl
    | error info => exact absurd ⟨info, hresult⟩ hnone

/-- A file that takes one byte, then two, of the first requests. -/
def partialWrites : RemoteFile where
  content := [9, 9]
  offset := 1
  maxLength_pos := maxLength_default_pos
  accepts := [1, 2]

/-- The same with a disk that is full at the second request. -/
def fullDisk : RemoteFile := { partialWrites with replies := [.bytes 1, .failure 4] }

/-- Four requests carry the two writes, the last one first at the server; and a
failure that `try_write` does not see comes out of the flush. -/
theorem writeBehind_run_partialWrites :
    (run tryWrite tryFlush [[1, 2, 3, 4, 5], [6]] (new partialWrites 3 2)).2.contentAfter
        [⟨6, [6]⟩, ⟨4, [4, 5]⟩, ⟨2, [2, 3]⟩, ⟨1, [1]⟩] = [9, 1, 2, 3, 4, 5, 6] ∧
      ∃ info, .error info ∈ (run tryWrite tryFlush [[1, 2], [3]] (new fullDisk 3 4)).1 := by
  constructor
  · have hstatus : ∀ status, .failure status ∈ partialWrites.replies → status ≠ 0 := by
      intro status hmem
      exact absurd hmem List.not_mem_nil
    have hrun := (writeBehind_run partialWrites 3 2 [[1, 2, 3, 4, 5], [6]] hstatus).2.2.1
      (by decide +kernel)
    rw [(hrun.2 _ (by decide +kernel)).1]
    decide +kernel
  · have hstatus : ∀ status, .failure status ∈ fullDisk.replies → status ≠ 0 := by
      intro status hmem
      simp only [fullDisk, List.mem_cons, reduceCtorEq, Reply.failure.injEq, List.not_mem_nil,
        or_false, false_or] at hmem
      omega
    exact (writeBehind_run fullDisk 3 4 [[1, 2], [3]] hstatus).2.2.2 (by decide +kernel)

end WriteBehind

end LibSshpp.Sftp
