import LibSshpp.Scp.Transfer

/-!
Sending a file over SCP: `scp::Writer::try_write_from` from a stream of the caller
and `scp::try_upload` from a local file. The size is announced before the first
byte, so the loop may pass neither more than it nor less and call that a success.
-/

set_option autoImplicit false
set_option relaxedAutoImplicit false

namespace LibSshpp.Scp

open Posix Program

/-- The state bits of a `std::istream`: none, only `eofbit`, or one of those that
make it test false. -/
inductive StreamState
  | good | eof | failed
  deriving DecidableEq, Repr

/-- A `std::istream` as one caller meets it: the bytes behind it, and how many of
them the buffer delivers at most at each of the coming reads, none where it throws.
Reads beyond the list deliver all there is. -/
structure IStream where
  content : Bytes := []
  reads : List ℕ := []
  state : StreamState := .good
  deriving DecidableEq, Repr

/-- `std::istream::read`, with the bytes `gcount` counts. A read that gets less than
it asked for leaves the stream failed. -/
def IStream.read (stream : IStream) (len : ℕ) : Bytes × IStream :=
  if stream.state ≠ .good then ([], { stream with state := .failed })
  else
    let data := stream.content.take (min len (stream.reads.head?.getD len))
    (data, {
      content := stream.content.drop data.length
      reads := stream.reads.tail
      state := if data.length < len then .failed else .good })

/-- A `Writer` as one transfer meets it: whether libssh made the handle, the results
of `ssh_scp_init` and `ssh_scp_push_file64`, whether each of the coming calls of
`ssh_scp_write` succeeds, what was announced, and all the bytes passed to
`ssh_scp_write` so far. Calls beyond the list succeed. -/
structure Writer where
  hasHandle : Bool := true
  initOk : Bool := true
  pushOk : Bool := true
  writes : List Bool := []
  announced : Option (Bytes × ℕ × UInt32) := none
  passed : Bytes := []
  lastError : SshError := {}
  deriving DecidableEq, Repr

namespace Writer

def tryInit (writer : Writer) : Result Unit :=
  if writer.hasHandle = false then
    .error { code := .ssh .scpError, operation := "Writer::try_init" }
  else if writer.initOk then .ok ()
  else .error (makeErrorInfo writer.lastError "ssh_scp_init" .scpError)

def tryPushFile (name : Bytes) (size : ℕ) (perms : UInt32) :
    StateM Writer (Result Unit) := fun writer ↦
  if writer.hasHandle = false then
    (.error { code := .ssh .invalidHandle, operation := "Writer::try_push_file" }, writer)
  else if writer.pushOk then (.ok (), { writer with announced := some (name, size, perms) })
  else (.error (makeErrorInfo writer.lastError "ssh_scp_push_file64" .scpError), writer)

def tryWrite (data : Bytes) : StateM Writer (Result Unit) := fun writer ↦
  if writer.hasHandle = false then
    (.error { code := .ssh .invalidHandle, operation := "Writer::try_write" }, writer)
  else
    let after := { writer with
      writes := writer.writes.tail, passed := writer.passed ++ data }
    if writer.writes.head?.getD true then (.ok (), after)
    else (.error (makeErrorInfo writer.lastError "ssh_scp_write" .scpError), after)

end Writer

/-! ### The loop -/

structure Sending where
  stream : IStream
  writer : Writer
  deriving DecidableEq, Repr

namespace Sending

/-- The condition of the loop, with the length of its read. -/
def want (size : ℕ) (state : Sending) (total : ℕ) : Option ℕ :=
  if total < size ∧ state.stream.state ≠ .failed then some (min bufferSize (size - total))
  else none

def read (len : ℕ) : StateM Sending (Result Bytes) := fun state ↦
  let (data, stream) := state.stream.read len
  (.ok data, { state with stream })

def write (data : Bytes) : StateM Sending (Result Unit) := fun state ↦
  let (result, writer) := Writer.tryWrite data state.writer
  (result, { state with writer })

/-- The loop of `try_write_from`. Each round passes something of the announced
size. -/
def loop (progress : Option (Progress → Bool)) (size : ℕ) : StateM Sending (Result ℕ) :=
  copyLoop (want size) read write (Receive.cancelled progress size "Writer::try_write_from") size 0

end Sending

/-- `Writer::try_write_from`. The callback's answer is a function of the progress it
is told, which grows from call to call: one with a state of its own is as good as
the function that answers as it does in this run. -/
def tryWriteFrom (progress : Option (Progress → Bool)) (size : ℕ) :
    StateM Sending (Result ℕ) := fun state ↦
  match Sending.loop progress size state with
  | (.error info, state) => (.error info, state)
  | (.ok total, state) =>
    if total ≠ size then
      (.error {
        code := .ssh .scpError, message := "short local read"
        operation := "Writer::try_write_from" }, state)
    else (.ok total, state)

/-- `scp::try_upload`, with the writer it constructs. The size of the file is taken
before the file is opened, so the stream may deliver another number of bytes. -/
def tryUpload (writer : Writer) (fileSize : Option ℕ) (source : LocalFile) (name : Bytes)
    (stream : IStream) (progress : Option (Progress → Bool)) : Result ℕ × Writer :=
  match fileSize with
  | none =>
    (.error {
      code := .ssh .invalidArgument, message := "cannot stat " ++ source.path
      operation := "scp::try_upload" }, writer)
  | some fileSize =>
    match writer.tryInit with
    | .error info => (.error info, writer)
    | .ok () =>
      match Writer.tryPushFile name fileSize (source.permissions.getD 0o600) writer with
      | (.error info, writer) => (.error info, writer)
      | (.ok (), writer) =>
        if source.canOpen = false then
          (.error {
            code := .ssh .invalidArgument, message := "cannot open " ++ source.path
            operation := "scp::try_upload" }, writer)
        else
          let (result, state) := tryWriteFrom progress fileSize { stream, writer }
          (result, state.writer)

/-! ### What has to go well -/

/-- The length of the `k`-th read of `size` bytes. -/
def blockLength (size k : ℕ) : ℕ :=
  min bufferSize (size - k * bufferSize)

/-- The first `size` bytes can be read of the stream, a buffer at a time. -/
structure IStream.CanRead (stream : IStream) (size : ℕ) : Prop where
  good : 0 < size → stream.state = .good
  enough : size ≤ stream.content.length
  full : ∀ k atMost, stream.reads[k]? = some atMost → blockLength size k ≤ atMost

/-- Every write that `size` bytes take succeeds. -/
structure Writer.Accepts (writer : Writer) (size : ℕ) : Prop where
  handle : 0 < size → writer.hasHandle = true
  writes : ∀ k, k * bufferSize < size → writer.writes[k]? ≠ some false

/-- The callback, if there is one, refuses at none of the points it is called at
when `done` of `size` bytes have been passed. -/
def AllowsFrom (progress : Option (Progress → Bool)) (size done : ℕ) : Prop :=
  ∀ callback ∈ progress, ∀ k, done + k * bufferSize < size →
    callback {
      bytesDone := min size (done + (k + 1) * bufferSize), bytesTotal := some size } = true

theorem blockLength_zero (size : ℕ) : blockLength size 0 = min bufferSize size := by
  rw [blockLength, Nat.zero_mul, Nat.sub_zero]

theorem blockLength_zero_le (size : ℕ) : blockLength size 0 ≤ size :=
  blockLength_zero size ▸ Nat.min_le_right _ _

/-- The reads after the first are the reads of what is left. -/
theorem blockLength_succ (size k : ℕ) :
    blockLength size (k + 1) = blockLength (size - blockLength size 0) k := by
  rw [blockLength_zero, blockLength, blockLength, Nat.succ_mul]
  omega

theorem lt_iff_blockLength_pos (size k : ℕ) : k * bufferSize < size ↔ 0 < blockLength size k := by
  unfold blockLength
  unfold bufferSize
  omega

/-- What a read of a good stream delivers. -/
theorem IStream.read_good {stream : IStream} (hgood : stream.state = .good) (len : ℕ) :
    (stream.read len).1 = stream.content.take (min len (stream.reads.head?.getD len)) ∧
      (stream.read len).2.content = stream.content.drop (stream.read len).1.length ∧
      (stream.read len).2.reads = stream.reads.tail ∧
      ((stream.read len).2.state = .good ↔ len ≤ (stream.read len).1.length) := by
  rw [IStream.read, if_neg (not_not.mpr hgood)]
  refine ⟨rfl, rfl, rfl, ?_⟩
  dsimp only
  split <;> simp_all

/-- A read that delivers something took the next bytes of a good stream, and leaves
the stream good only if it was full. -/
theorem IStream.read_spec {stream after : IStream} {len : ℕ} {data : Bytes}
    (h : stream.read len = (data, after)) (hne : data ≠ []) :
    stream.content = data ++ after.content ∧ data.length ≤ len ∧
      (after.state = .good → data.length = len) := by
  by_cases hgood : stream.state = .good
  · obtain ⟨hdata, hcontent, -, hstate⟩ := read_good hgood len
    simp only [h] at hdata hcontent hstate
    have hlength : data.length ≤ len := by
      rw [hdata, List.length_take]
      omega
    refine ⟨?_, hlength, fun hafter ↦ hlength.antisymm (hstate.mp hafter)⟩
    have hisPrefix : data <+: stream.content := hdata ▸ List.take_prefix _ _
    rw [hcontent]
    exact (List.prefix_iff_eq_append.mp hisPrefix).symm
  · rw [read, if_pos hgood] at h
    exact absurd (congrArg Prod.fst h).symm hne

/-- The stream can deliver `size` bytes if its next read is full and it can deliver
the rest after it. -/
theorem IStream.canRead_iff (stream : IStream) {size : ℕ} (hpos : 0 < size) :
    stream.CanRead size ↔ stream.state = .good ∧
      (stream.read (blockLength size 0)).1.length = blockLength size 0 ∧
      (stream.read (blockLength size 0)).2.CanRead (size - blockLength size 0) := by
  have hle := blockLength_zero_le size
  constructor
  · intro hcan
    have hgood := hcan.good hpos
    obtain ⟨hdata, hcontent, hreads, hstate⟩ := read_good hgood (blockLength size 0)
    have hfirst : blockLength size 0 ≤ stream.reads.head?.getD (blockLength size 0) := by
      rcases hhead : stream.reads.head? with _ | atMost
      · exact le_rfl
      · exact hcan.full 0 atMost (by rw [← List.head?_eq_getElem?, hhead])
    have hlength : (stream.read (blockLength size 0)).1.length = blockLength size 0 := by
      rw [hdata, List.length_take, Nat.min_eq_left hfirst]
      exact Nat.min_eq_left (hle.trans hcan.enough)
    refine ⟨hgood, hlength, fun _ ↦ hstate.mpr hlength.ge, ?_, fun k atMost hk ↦ ?_⟩
    · rw [hcontent, List.length_drop, hlength]
      exact Nat.sub_le_sub_right hcan.enough _
    · rw [hreads, List.getElem?_tail] at hk
      exact blockLength_succ size k ▸ hcan.full (k + 1) atMost hk
  · rintro ⟨hgood, hlength, hrest⟩
    obtain ⟨hdata, hcontent, hreads, -⟩ := read_good hgood (blockLength size 0)
    have htaken := hlength
    rw [hdata, List.length_take] at htaken
    refine ⟨fun _ ↦ hgood, ?_, fun k atMost hk ↦ ?_⟩
    · have henough := hrest.enough
      rw [hcontent, List.length_drop, hlength] at henough
      omega
    · cases k with
      | zero =>
        rw [← List.head?_eq_getElem?] at hk
        rw [hk, Option.getD_some] at htaken
        omega
      | succ k =>
        rw [blockLength_succ]
        exact hrest.full k atMost (by rw [hreads, List.getElem?_tail, hk])

/-- The writer takes `size` bytes if its next write succeeds and it takes the rest
after it. -/
theorem Writer.accepts_iff (writer : Writer) {size : ℕ} (hpos : 0 < size) (data : Bytes) :
    writer.Accepts size ↔ (Writer.tryWrite data writer).1 = .ok () ∧
      (Writer.tryWrite data writer).2.Accepts (size - blockLength size 0) := by
  unfold tryWrite
  split
  · next hhandle =>
    refine ⟨fun haccepts ↦ ?_, fun h ↦ nomatch h.1⟩
    rw [haccepts.handle hpos] at hhandle
    exact nomatch hhandle
  next hhandle =>
  rw [Bool.not_eq_false] at hhandle
  dsimp only
  have hlater : ∀ k, k * bufferSize < size - blockLength size 0 ↔ (k + 1) * bufferSize < size := by
    intro k
    rw [lt_iff_blockLength_pos, lt_iff_blockLength_pos, blockLength_succ]
  split
  · next hfirst =>
    refine ⟨fun haccepts ↦ ⟨rfl, fun _ ↦ hhandle, fun k hk ↦ ?_⟩, fun ⟨_, hrest⟩ ↦
      ⟨fun _ ↦ hhandle, fun k hk ↦ ?_⟩⟩
    · rw [List.getElem?_tail]
      exact haccepts.writes (k + 1) ((hlater k).mp hk)
    · cases k with
      | zero =>
        intro hfails
        rw [← List.head?_eq_getElem?] at hfails
        rw [hfails] at hfirst
        exact nomatch hfirst
      | succ k =>
        have hrest := hrest.writes k ((hlater k).mpr hk)
        rwa [List.getElem?_tail] at hrest
  · next hfirst =>
    refine ⟨fun haccepts ↦ absurd ?_ hfirst, fun h ↦ nomatch h.1⟩
    have hwrite := haccepts.writes 0 (by omega)
    rw [← List.head?_eq_getElem?] at hwrite
    rcases hhead : writer.writes.head? with _ | _ | _
    · rfl
    · exact absurd hhead hwrite
    · rfl

/-- The callback allows the rest of a transfer if it does not refuse after the next
block, nor after that. -/
theorem allowsFrom_iff (progress : Option (Progress → Bool)) {size done : ℕ} (operation : String)
    (hlt : done < size) :
    AllowsFrom progress size done ↔
      Receive.cancelled progress size operation (done + blockLength (size - done) 0) = none ∧
        AllowsFrom progress size (done + blockLength (size - done) 0) := by
  cases progress with
  | none => exact ⟨fun _ ↦ ⟨rfl, fun _ h ↦ nomatch h⟩, fun _ _ h ↦ nomatch h⟩
  | some callback =>
    rw [blockLength_zero]
    unfold AllowsFrom Receive.cancelled
    simp only [Option.mem_some_iff, forall_eq']
    have hfirst : min size (done + (0 + 1) * bufferSize) =
        done + min bufferSize (size - done) := by omega
    have hblock : done + bufferSize < size → min bufferSize (size - done) = bufferSize := by omega
    constructor
    · intro hallows
      refine ⟨?_, fun k hk ↦ ?_⟩
      · rw [if_pos (hfirst ▸ hallows 0 (by omega))]
      · have hlater := hallows (k + 1) (by rw [Nat.succ_mul]; omega)
        rw [Nat.succ_mul] at hlater
        rw [hblock (by omega)] at hk ⊢
        rwa [Nat.add_assoc, Nat.add_comm bufferSize]
    · rintro ⟨hallows, hrest⟩ k hk
      cases k with
      | zero =>
        rw [hfirst]
        by_contra hrefused
        rw [if_neg hrefused] at hallows
        exact nomatch hallows
      | succ k =>
        rw [Nat.succ_mul] at hk
        have hlater := hrest k (by rw [hblock (by omega)]; omega)
        rw [hblock (by omega), Nat.add_assoc, Nat.add_comm bufferSize, ← Nat.succ_mul] at hlater
        exact hlater

theorem canRead_zero (stream : IStream) : stream.CanRead 0 :=
  ⟨fun h ↦ absurd h (Nat.lt_irrefl 0), Nat.zero_le _, fun k _ _ ↦ by simp [blockLength]⟩

theorem accepts_zero (writer : Writer) : writer.Accepts 0 :=
  ⟨fun h ↦ absurd h (Nat.lt_irrefl 0), fun _ h ↦ absurd h (Nat.not_lt_zero _)⟩

/-! ### What the loop passes on -/

namespace Sending

/-- A write passes its data to libssh, or fails, perhaps after that. -/
theorem tryWrite_passed {data : Bytes} {writer after : Writer} {result : Result Unit}
    (h : Writer.tryWrite data writer = (result, after)) :
    after.announced = writer.announced ∧ (after.passed = writer.passed ++ data ∨
      after.passed = writer.passed ∧ ∃ info, result = .error info) := by
  unfold Writer.tryWrite at h
  split at h
  · obtain ⟨rfl, rfl⟩ := Prod.mk.inj h
    exact ⟨rfl, .inr ⟨rfl, _, rfl⟩⟩
  · dsimp only at h
    split at h <;> obtain ⟨-, rfl⟩ := Prod.mk.inj h <;> exact ⟨rfl, .inl rfl⟩

/-- What is left of a transfer goes well. -/
structure GoesWell (progress : Option (Progress → Bool)) (size total : ℕ) (state : Sending) :
    Prop where
  canRead : state.stream.CanRead (size - total)
  accepts : state.writer.Accepts (size - total)
  allows : AllowsFrom progress size total

/-- What a loop has done that left the bytes `sent` with libssh. -/
structure Sent (progress : Option (Progress → Bool)) (size total : ℕ) (state : Sending)
    (result : Result ℕ) (after : Sending) (sent : Bytes) : Prop where
  isPrefix : sent <+: state.stream.content.take (size - total)
  passed : after.writer.passed = state.writer.passed ++ sent
  announced : after.writer.announced = state.writer.announced
  count : ∀ n, result = .ok n → n = total + sent.length
  complete : result = .ok size ↔ GoesWell progress size total state

/-- A loop that stops here has passed nothing more, and is complete only if there
was nothing left. -/
theorem sent_of_stop {progress : Option (Progress → Bool)} {size total : ℕ}
    {state after : Sending} (hwriter : after.writer = state.writer) (hle : total ≤ size)
    (hstuck : total < size → ¬ state.stream.CanRead (size - total)) :
    Sent progress size total state (.ok total) after [] where
  isPrefix := List.nil_prefix
  passed := by rw [hwriter, List.append_nil]
  announced := by rw [hwriter]
  count := fun n hn ↦ (Except.ok.inj hn).symm
  complete := by
    constructor
    · intro hdone
      obtain rfl := Except.ok.inj hdone
      refine ⟨?_, ?_, fun _ _ k hk ↦ absurd hk (by omega)⟩
      · exact Nat.sub_self total ▸ canRead_zero _
      · exact Nat.sub_self total ▸ accepts_zero _
    · intro hwell
      rcases hle.eq_or_lt with rfl | hlt
      · rfl
      · exact absurd hwell.canRead (hstuck hlt)

theorem want_eq_some {size total len : ℕ} {state : Sending}
    (h : want size state total = some len) : total < size ∧ len = blockLength (size - total) 0 := by
  unfold want at h
  split at h
  · next hcondition =>
    exact ⟨hcondition.1, by rw [blockLength_zero, Option.some.inj h]⟩
  · exact nomatch h

/-- What is left goes well if the next block does and then the rest. -/
theorem goesWell_iff (progress : Option (Progress → Bool)) {size total : ℕ} {state : Sending}
    {data : Bytes} {stream : IStream} (operation : String) (hlt : total < size)
    (hread : state.stream.read (blockLength (size - total) 0) = (data, stream)) (hne : data ≠ []) :
    GoesWell progress size total state ↔
      (Writer.tryWrite data state.writer).1 = .ok () ∧
        Receive.cancelled progress size operation (total + data.length) = none ∧
        GoesWell progress size (total + data.length)
          { stream, writer := (Writer.tryWrite data state.writer).2 } := by
  have hpos : 0 < size - total := by omega
  have hcan := state.stream.canRead_iff hpos
  have haccepts := state.writer.accepts_iff hpos data
  have hallows := allowsFrom_iff progress operation hlt
  obtain ⟨-, hbound, hfull⟩ := IStream.read_spec hread hne
  have hle := blockLength_zero_le (size - total)
  rw [hread] at hcan
  by_cases hlength : data.length = blockLength (size - total) 0
  · rw [← hlength, Nat.sub_sub] at hcan haccepts
    rw [← hlength] at hallows
    constructor
    · intro hwell
      have hrest := hcan.mp hwell.canRead
      have hwrites := haccepts.mp hwell.accepts
      have hcalls := hallows.mp hwell.allows
      exact ⟨hwrites.1, hcalls.1, hrest.2.2, hwrites.2, hcalls.2⟩
    · rintro ⟨hwrite, hcall, hrest⟩
      have hgood : state.stream.state = .good := by
        by_contra hbad
        rw [IStream.read, if_pos hbad] at hread
        exact hne (congrArg Prod.fst hread).symm
      have hcanRead := hcan.mpr ⟨hgood, rfl, hrest.canRead⟩
      exact ⟨hcanRead, haccepts.mpr ⟨hwrite, hrest.accepts⟩, hallows.mpr ⟨hcall, hrest.allows⟩⟩
  · refine ⟨fun hwell ↦ absurd (hcan.mp hwell.canRead).2.1 hlength, fun ⟨_, _, hrest⟩ ↦ ?_⟩
    exact absurd (hfull (hrest.canRead.good (by omega))) hlength

/-- A round that fails has passed its data, or nothing. -/
theorem sent_of_error {progress : Option (Progress → Bool)} {size total : ℕ}
    {state after : Sending} {sent : Bytes} (info : ErrorInfo)
    (hisPrefix : sent <+: state.stream.content.take (size - total))
    (hpassed : after.writer.passed = state.writer.passed ++ sent)
    (hannounced : after.writer.announced = state.writer.announced)
    (hwell : ¬ GoesWell progress size total state) :
    Sent progress size total state (.error info) after sent where
  isPrefix := hisPrefix
  passed := hpassed
  announced := hannounced
  count := fun _ h ↦ nomatch h
  complete := ⟨fun h ↦ (nomatch h), fun h ↦ absurd h hwell⟩

theorem isPrefix_take {content data rest : Bytes} {len : ℕ} (hcontent : content = data ++ rest)
    (hle : data.length ≤ len) : data <+: content.take len := by
  rw [List.prefix_take_iff]
  exact ⟨⟨rest, hcontent.symm⟩, hle⟩

theorem Sent.append {progress : Option (Progress → Bool)} {size total : ℕ}
    {state middle after : Sending} {result : Result ℕ} {data sent : Bytes}
    (hcontent : state.stream.content = data ++ middle.stream.content)
    (hpassed : middle.writer.passed = state.writer.passed ++ data)
    (hannounced : middle.writer.announced = state.writer.announced)
    (hle : data.length ≤ size - total)
    (hwell : GoesWell progress size total state ↔
      GoesWell progress size (total + data.length) middle)
    (hsent : Sent progress size (total + data.length) middle result after sent) :
    Sent progress size total state result after (data ++ sent) where
  isPrefix := by
    have htake : state.stream.content.take (size - total) =
        data ++ middle.stream.content.take (size - (total + data.length)) := by
      rw [hcontent, List.take_append, List.take_of_length_le hle, Nat.sub_sub]
    rw [htake]
    exact (List.prefix_append_right_inj data).mpr hsent.isPrefix
  passed := by rw [hsent.passed, hpassed, List.append_assoc]
  announced := hsent.announced.trans hannounced
  count := fun n hn ↦ by rw [hsent.count n hn, List.length_append, Nat.add_assoc]
  complete := hsent.complete.trans hwell.symm

theorem write_passed {data : Bytes} {state after : Sending} {result : Result Unit}
    (h : write data state = (result, after)) :
    after.stream = state.stream ∧ after.writer.announced = state.writer.announced ∧
      (after.writer.passed = state.writer.passed ++ data ∨
        after.writer.passed = state.writer.passed ∧ ∃ info, result = .error info) := by
  obtain ⟨rfl, rfl⟩ := Prod.mk.inj h
  exact ⟨rfl, tryWrite_passed rfl⟩

/-- A round that has read something took the next bytes of the stream, and what is
left goes well if the writer and the callback take them and then the rest. -/
theorem goesWell_block (progress : Option (Progress → Bool)) (operation : String)
    {size total len : ℕ} {state middle : Sending} {data : Bytes}
    (hwant : want size state total = some len) (hread : read len state = (.ok data, middle))
    (hne : data ≠ []) :
    state.stream.content = data ++ middle.stream.content ∧ data.length ≤ size - total ∧
      middle.writer = state.writer ∧
      (GoesWell progress size total state ↔ (write data middle).1 = .ok () ∧
        Receive.cancelled progress size operation (total + data.length) = none ∧
        GoesWell progress size (total + data.length) (write data middle).2) := by
  obtain ⟨hlt, rfl⟩ := want_eq_some hwant
  obtain ⟨hdata, rfl⟩ := Prod.mk.inj hread
  have hstream : state.stream.read (blockLength (size - total) 0) =
      (data, (state.stream.read (blockLength (size - total) 0)).2) :=
    Prod.ext (Except.ok.inj hdata) rfl
  obtain ⟨hcontent, hbound, -⟩ := IStream.read_spec hstream hne
  exact ⟨hcontent, hbound.trans (blockLength_zero_le (size - total)), rfl,
    goesWell_iff progress operation hlt hstream hne⟩

/-- A round that reads nothing where something is left cannot go well. -/
theorem not_canRead_of_nothing {size total len : ℕ} {state after : Sending}
    (hwant : want size state total = some len) (hread : read len state = (.ok [], after)) :
    ¬ state.stream.CanRead (size - total) := by
  obtain ⟨hlt, rfl⟩ := want_eq_some hwant
  have hpos : 0 < size - total := by omega
  intro hcan
  have hlength := ((state.stream.canRead_iff hpos).mp hcan).2.1
  have hblock := (lt_iff_blockLength_pos (size - total) 0).mp (by omega)
  have hnothing : (state.stream.read (blockLength (size - total) 0)).1 = [] :=
    Except.ok.inj (congrArg Prod.fst hread)
  rw [← hlength, hnothing] at hblock
  exact absurd hblock (Nat.lt_irrefl 0)

theorem loop_sent (progress : Option (Progress → Bool)) (size rounds : ℕ) :
    ∀ {total : ℕ} {state after : Sending} {result : Result ℕ}, total ≤ size →
      size - total ≤ rounds →
      copyLoop (want size) read write (Receive.cancelled progress size "Writer::try_write_from")
        rounds total state = (result, after) →
      ∃ sent, Sent progress size total state result after sent := by
  induction rounds with
  | zero =>
    intro total state after result hle hrounds hrun
    obtain ⟨rfl, rfl⟩ := Prod.mk.inj hrun
    exact ⟨[], sent_of_stop rfl hle fun hlt ↦ by omega⟩
  | succ rounds ih =>
    intro total state after result hle hrounds hrun
    cases copyLoop_round hrun with
    | unwanted hwant =>
      refine ⟨[], sent_of_stop rfl hle fun hlt hcan ↦ ?_⟩
      rw [want, if_pos ⟨hlt, by rw [hcan.good (by omega)]; decide⟩] at hwant
      exact nomatch hwant
    | readFailed hwant hread => exact nomatch congrArg Prod.fst hread
    | nothing hwant hread =>
      have hwriter : after.writer = state.writer := by
        obtain ⟨-, rfl⟩ := Prod.mk.inj hread
        rfl
      exact ⟨[], sent_of_stop hwriter hle fun _ ↦ not_canRead_of_nothing hwant hread⟩
    | @writeFailed len data middle _ info hwant hread hne hwrite =>
      obtain ⟨hcontent, hbound, hwriter, hwell⟩ :=
        goesWell_block progress "Writer::try_write_from" hwant hread hne
      obtain ⟨-, hannounced, hpassed⟩ := write_passed hwrite
      rw [hwrite] at hwell
      rw [hwriter] at hannounced hpassed
      have hfails : ¬ GoesWell progress size total state := fun h ↦ nomatch (hwell.mp h).1
      rcases hpassed with hpassed | ⟨hpassed, -⟩
      · exact ⟨data, sent_of_error info (isPrefix_take hcontent hbound) hpassed hannounced hfails⟩
      · refine ⟨[], sent_of_error info List.nil_prefix ?_ hannounced hfails⟩
        rw [hpassed, List.append_nil]
    | @refused len data middle _ info hwant hread hne hwrite hcheck =>
      obtain ⟨hcontent, hbound, hwriter, hwell⟩ :=
        goesWell_block progress "Writer::try_write_from" hwant hread hne
      obtain ⟨-, hannounced, hpassed⟩ := write_passed hwrite
      rw [hcheck] at hwell
      rw [hwriter] at hannounced hpassed
      have hall := hpassed.resolve_right fun h ↦ nomatch h.2
      exact ⟨data, sent_of_error info (isPrefix_take hcontent hbound) hall hannounced
        fun h ↦ nomatch (hwell.mp h).2.1⟩
    | @copied len data middle written _ hwant hread hne hwrite hcheck hlater =>
      obtain ⟨hcontent, hbound, hwriter, hwell⟩ :=
        goesWell_block progress "Writer::try_write_from" hwant hread hne
      obtain ⟨hstream, hannounced, hpassed⟩ := write_passed hwrite
      rw [hwrite, hcheck, and_iff_right rfl, and_iff_right rfl] at hwell
      rw [hwriter] at hannounced hpassed
      rw [← hstream] at hcontent
      have hall := hpassed.resolve_right fun h ↦ nomatch h.2
      have hlength := List.length_pos_iff.mpr hne
      obtain ⟨sent, hsent⟩ := ih (by omega) (by omega) hlater
      exact ⟨data ++ sent, hsent.append hcontent hall hannounced hbound hwell⟩

end Sending

theorem tryWriteFrom_sent {progress : Option (Progress → Bool)} {size : ℕ}
    {state after : Sending} {result : Result ℕ}
    (h : tryWriteFrom progress size state = (result, after)) :
    (∃ sent, Sending.Sent progress size 0 state result after sent) ∧
      ∀ n, result = .ok n → n = size := by
  rcases hloop : Sending.loop progress size state with ⟨stopped, last⟩
  obtain ⟨sent, hsent⟩ := Sending.loop_sent progress size size (Nat.zero_le _)
    (Nat.sub_le size 0) hloop
  rw [tryWriteFrom, hloop] at h
  cases stopped with
  | error info =>
    obtain ⟨rfl, rfl⟩ := Prod.mk.inj h
    exact ⟨⟨sent, hsent⟩, fun _ h ↦ nomatch h⟩
  | ok total =>
    dsimp only at h
    by_cases hshort : total ≠ size
    · rw [if_pos hshort] at h
      obtain ⟨rfl, rfl⟩ := Prod.mk.inj h
      have hfails : ¬ Sending.GoesWell progress size 0 state :=
        fun hwell ↦ hshort (Except.ok.inj (hsent.complete.mpr hwell))
      exact ⟨⟨sent, Sending.sent_of_error _ hsent.isPrefix hsent.passed hsent.announced hfails⟩,
        fun _ h ↦ nomatch h⟩
    · rw [if_neg hshort] at h
      obtain ⟨rfl, rfl⟩ := Prod.mk.inj h
      exact ⟨⟨sent, hsent⟩, fun n hn ↦ Except.ok.inj hn ▸ not_not.mp hshort⟩

/-- A transfer that succeeds has passed the whole beginning of the stream. -/
theorem Sending.Sent.eq_take {progress : Option (Progress → Bool)} {size : ℕ}
    {state after : Sending} {sent : Bytes} (h : Sent progress size 0 state (.ok size) after sent) :
    size ≤ state.stream.content.length ∧ sent = state.stream.content.take size := by
  have henough := (h.complete.mp rfl).canRead.enough
  refine ⟨henough, h.isPrefix.eq_of_length ?_⟩
  have hcount := h.count size rfl
  rw [List.length_take, Nat.sub_zero]
  omega

/-- `try_write_from` succeeds exactly when the first `size` bytes can be read of the
stream, every write of them succeeds and the callback refuses none of its calls. Then it
has passed exactly these bytes, in order, and returns their number; in every case
what it has passed is a beginning of them. -/
theorem tryWriteFrom_exact (progress : Option (Progress → Bool)) (size : ℕ) (stream : IStream)
    (writer : Writer) :
    let (result, after) := tryWriteFrom progress size { stream, writer }
    ((∃ n, result = .ok n) ↔
        stream.CanRead size ∧ writer.Accepts size ∧ AllowsFrom progress size 0) ∧
      (∀ n, result = .ok n → n = size ∧ size ≤ stream.content.length ∧
        after.writer.passed = writer.passed ++ stream.content.take size) ∧
      ∃ sent, sent <+: stream.content.take size ∧ after.writer.passed = writer.passed ++ sent := by
  rcases hrun : tryWriteFrom progress size { stream, writer } with ⟨result, after⟩
  obtain ⟨⟨sent, hsent⟩, hsize⟩ := tryWriteFrom_sent hrun
  refine ⟨⟨?_, fun ⟨hread, hwrite, hcalls⟩ ↦ ?_⟩, ?_, sent, hsent.isPrefix, hsent.passed⟩
  · rintro ⟨n, rfl⟩
    obtain rfl := hsize n rfl
    have hwell := hsent.complete.mp rfl
    exact ⟨hwell.canRead, hwell.accepts, hwell.allows⟩
  · exact ⟨size, hsent.complete.mpr ⟨hread, hwrite, hcalls⟩⟩
  · rintro n rfl
    obtain rfl := hsize n rfl
    obtain ⟨henough, rfl⟩ := hsent.eq_take
    exact ⟨rfl, henough, hsent.passed⟩

theorem tryPushFile_ok {name : Bytes} {size : ℕ} {perms : UInt32} {writer after : Writer}
    (h : Writer.tryPushFile name size perms writer = (.ok (), after)) :
    after.announced = some (name, size, perms) ∧ after.passed = writer.passed := by
  unfold Writer.tryPushFile at h
  split at h
  · exact nomatch congrArg Prod.fst h
  split at h
  · obtain ⟨-, rfl⟩ := Prod.mk.inj h
    exact ⟨rfl, rfl⟩
  · exact nomatch congrArg Prod.fst h

/-- An upload that succeeds has announced the size of the file and passed that many
bytes of it. -/
theorem tryUpload_ok {writer after : Writer} {fileSize : Option ℕ} {source : LocalFile}
    {name : Bytes} {stream : IStream} {progress : Option (Progress → Bool)} {n : ℕ}
    (h : tryUpload writer fileSize source name stream progress = (.ok n, after)) :
    fileSize = some n ∧ after.announced = some (name, n, source.permissions.getD 0o600) ∧
      n ≤ stream.content.length ∧
      after.passed = writer.passed ++ stream.content.take n := by
  unfold tryUpload at h
  split at h
  · exact nomatch congrArg Prod.fst h
  next fileSize =>
  split at h
  · exact nomatch congrArg Prod.fst h
  split at h
  · exact nomatch congrArg Prod.fst h
  next pushed hpush =>
  split at h
  · exact nomatch congrArg Prod.fst h
  rcases hrun : tryWriteFrom progress fileSize { stream, writer := pushed } with ⟨result, last⟩
  simp only [hrun] at h
  obtain ⟨rfl, rfl⟩ := Prod.mk.inj h
  obtain ⟨⟨sent, hsent⟩, hsize⟩ := tryWriteFrom_sent hrun
  obtain rfl := hsize n rfl
  obtain ⟨hannounced, hpassed⟩ := tryPushFile_ok hpush
  obtain ⟨henough, rfl⟩ := hsent.eq_take
  exact ⟨rfl, hsent.announced.trans hannounced, henough, hpassed ▸ hsent.passed⟩

end LibSshpp.Scp
