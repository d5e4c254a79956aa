import LibSshpp.Sftp.RemoteFile
import Mathlib.Data.List.Infix

/-!
`File::ReadAhead`: reads with several requests in flight, and its synchronous
fallback. A request is sent for the offset libssh has reached, which moves on by
the length asked for; what a reply is short of is asked for by nobody. The
fallback moves on by what it got.
-/

set_option autoImplicit false
set_option relaxedAutoImplicit false

namespace LibSshpp.Sftp

/-- A read in flight. -/
structure AioRead where
  offset : ℕ
  len : ℕ
  deriving DecidableEq, Repr

def defaultChunk : ℕ := 256 * 1024
def defaultDepth : ℕ := 16

theorem orDefault_pos {given byDefault : ℕ} (h : 0 < byDefault) :
    0 < if given ≠ 0 then given else byDefault := by
  split <;> omega

/-- `File::ReadAhead` with its file. -/
structure ReadAhead where
  file : RemoteFile
  chunk : ℕ
  depth : ℕ
  inflight : List AioRead := []
  reachedEof : Bool := false
  deriving DecidableEq, Repr

namespace ReadAhead

def new (file : RemoteFile) (chunk depth : ℕ) : ReadAhead where
  file
  chunk := if chunk ≠ 0 then chunk else defaultChunk
  depth := if depth ≠ 0 then depth else defaultDepth

/-- `sftp_aio_begin_read`: a request for a chunk at the file's offset, which moves
on by the length requested. -/
def beginRead (file : RemoteFile) (len : ℕ) : Except ℤ AioRead × RemoteFile :=
  match file.unsendable.head? with
  | some (some status) => (.error status, { file with unsendable := file.unsendable.tail })
  | _ =>
    let len := min len file.maxLength
    (.ok { offset := file.offset, len },
      { file with offset := file.offset + len, unsendable := file.unsendable.tail })

def submitOne : StateM ReadAhead (Result Unit) := fun reader ↦
  match beginRead reader.file reader.chunk with
  | (.error status, file) =>
    (.error (makeSftpErrorInfo status {} "sftp_aio_begin_read"), { reader with file })
  | (.ok aio, file) => (.ok (), { reader with file, inflight := reader.inflight ++ [aio] })

/-- The loop that fills the queue, with the rounds it has left. -/
def fillLoop : ℕ → StateM ReadAhead (Result Unit)
  | 0 => pure (.ok ())
  | rounds + 1 => do
    match ← submitOne with
    | .error info => pure (.error info)
    | .ok () => fillLoop rounds

/-- Every submission lengthens the queue by one until it has `depth` requests. -/
def fill : StateM ReadAhead (Result Unit) := fun reader ↦
  if reader.reachedEof then (.ok (), reader)
  else fillLoop (reader.depth - reader.inflight.length) reader

/-- `try_next` over `sftp_aio`. -/
def tryNext : StateM ReadAhead (Result Bytes) := fun reader ↦
  if reader.file.isOpen = false then
    (.error { code := .ssh .invalidHandle, operation := "File::ReadAhead::try_next" }, reader)
  else match fill reader with
    | (.error info, reader) => (.error info, reader)
    | (.ok (), reader) =>
      match reader.inflight with
      | [] => (.ok [], reader)
      | aio :: inflight =>
        match reader.file.serveRead aio.offset aio.len with
        | (.error status, file) =>
          (.error (makeSftpErrorInfo status {} "sftp_aio_wait_read"),
            { reader with file, inflight })
        | (.ok [], file) => (.ok [], { reader with file, inflight := [], reachedEof := true })
        | (.ok data, file) => (.ok data, { reader with file, inflight })

/-- `try_next` where libssh has no `sftp_aio`. -/
def tryNextSync : StateM ReadAhead (Result Bytes) := fun reader ↦
  if reader.file.isOpen = false then
    (.error { code := .ssh .invalidHandle, operation := "File::ReadAhead::try_next" }, reader)
  else if reader.reachedEof then (.ok [], reader)
  else match reader.file.tryRead reader.chunk with
    | (.error info, file) => (.error info, { reader with file })
    | (.ok data, file) => (.ok data, { reader with file, reachedEof := data.isEmpty })

/-- The chunks of the first `calls` calls, as long as they succeed. -/
def chunks (next : StateM ReadAhead (Result Bytes)) : ℕ → ReadAhead → List Bytes
  | 0, _ => []
  | calls + 1, reader =>
    match next reader with
    | (.error _, _) => []
    | (.ok chunk, reader) => chunk :: chunks next calls reader

/-- What a reader has to deliver: at every point a prefix of the content from the
starting offset on, and all of it once an empty chunk was returned. -/
def Delivers (content : Bytes) (start : ℕ) (delivered : List Bytes) : Prop :=
  delivered.flatten <+: content.drop start ∧
    ([] ∈ delivered → delivered.flatten = content.drop start)

/-- The reply the next call waits for, if it waits for one and gets data, is not
short: it has all the bytes of the requested range that the file has. -/
def FullReply (reader : ReadAhead) : Prop :=
  ∀ aio rest data, (fill reader).1 = .ok () → (fill reader).2.inflight = aio :: rest →
    ((fill reader).2.file.serveRead aio.offset aio.len).1 = .ok data →
      data = (fill reader).2.file.range aio.offset aio.len

/-- The first `calls` calls, as long as they succeed, get full replies. -/
def FullReplies : ℕ → ReadAhead → Prop
  | 0, _ => True
  | calls + 1, reader =>
    FullReply reader ∧
      match tryNext reader with
      | (.error _, _) => True
      | (.ok _, reader) => FullReplies calls reader

/-! ### The requests in flight -/

/-- So many requests of one length, one after another. -/
def windows (len : ℕ) : ℕ → ℕ → List AioRead
  | 0, _ => []
  | count + 1, next => { offset := next, len } :: windows len count (next + len)

theorem windows_snoc (len count next : ℕ) :
    windows len count next ++ [{ offset := next + count * len, len }] =
      windows len (count + 1) next := by
  induction count generalizing next with
  | zero => simp [windows]
  | succ count ih =>
    have hoffset : next + (count + 1) * len = next + len + count * len := by
      rw [Nat.succ_mul]
      omega
    rw [hoffset, windows, List.cons_append, ih]
    rfl

theorem windows_length (len count next : ℕ) : (windows len count next).length = count := by
  induction count generalizing next with
  | zero => rfl
  | succ count ih => rw [windows, List.length_cons, ih]

/-- The reader is at `next`: the requests in flight start there, follow one
another, and end at the file's offset. -/
structure Live (content : Bytes) (len next count : ℕ) (reader : ReadAhead) : Prop where
  content_eq : reader.file.content = content
  len_eq : min reader.chunk reader.file.maxLength = len
  inflight_eq : reader.inflight = windows len count next
  offset_eq : reader.file.offset = next + count * len
  depth_pos : 0 < reader.depth
  notEof : reader.reachedEof = false

/-- The reader has seen the end of the file. -/
structure Ended (content : Bytes) (next : ℕ) (reader : ReadAhead) : Prop where
  past : content.drop next = []
  inflight_eq : reader.inflight = []
  eof : reader.reachedEof = true

theorem submitOne_live {content : Bytes} {len next count : ℕ} {reader after : ReadAhead}
    (hlive : Live content len next count reader) (h : submitOne reader = (.ok (), after)) :
    Live content len next (count + 1) after := by
  unfold submitOne beginRead at h
  split at h
  · exact nomatch h
  · next aio file hbegin =>
    obtain ⟨-, rfl⟩ := Prod.mk.inj h
    split at hbegin
    · exact nomatch hbegin
    · obtain ⟨haio, rfl⟩ := Prod.mk.inj hbegin
      obtain rfl := Except.ok.inj haio
      refine ⟨hlive.content_eq, hlive.len_eq, ?_, ?_, hlive.depth_pos, hlive.notEof⟩
      · rw [hlive.inflight_eq, hlive.offset_eq, hlive.len_eq, windows_snoc]
      · change reader.file.offset + min reader.chunk reader.file.maxLength = _
        rw [hlive.offset_eq, hlive.len_eq, Nat.succ_mul]
        omega

theorem fillLoop_live {content : Bytes} {len next : ℕ} (rounds : ℕ) :
    ∀ {count : ℕ} {reader after : ReadAhead}, Live content len next count reader →
      fillLoop rounds reader = (.ok (), after) → Live content len next (count + rounds) after := by
  induction rounds with
  | zero =>
    intro count reader after hlive h
    obtain ⟨-, rfl⟩ := Prod.mk.inj h
    exact hlive
  | succ rounds ih =>
    intro count reader after hlive h
    rcases hsubmit : submitOne reader with ⟨info | _, middle⟩
    · have hrun : fillLoop (rounds + 1) reader = (.error info, middle) :=
        Program.bind_of_eq hsubmit
      exact nomatch (congrArg Prod.fst (hrun.symm.trans h))
    · have hrun : fillLoop (rounds + 1) reader = fillLoop rounds middle :=
        Program.bind_of_eq hsubmit
      have hlater := ih (submitOne_live hlive hsubmit) (hrun.symm.trans h)
      rwa [Nat.add_right_comm] at hlater

/-- Filling the queue leaves at least one request to wait for. -/
theorem fill_live {content : Bytes} {len next count : ℕ} {reader after : ReadAhead}
    (hlive : Live content len next count reader) (h : fill reader = (.ok (), after)) :
    ∃ count', Live content len next (count' + 1) after := by
  rw [fill, hlive.notEof, if_neg (by simp)] at h
  have hfilled := fillLoop_live _ hlive h
  have hpos := hlive.depth_pos
  rw [hlive.inflight_eq, windows_length] at hfilled
  cases hcount : count + (reader.depth - count) with
  | zero => omega
  | succ count' => exact ⟨count', hcount ▸ hfilled⟩

/-! ### One call -/

/-- A call of a live reader that succeeds has filled the queue and got a reply to
its first request, which an empty reply drops with all the others. -/
theorem tryNext_waits {content data : Bytes} {len next count : ℕ} {reader after : ReadAhead}
    (hlive : Live content len next count reader) (h : tryNext reader = (.ok data, after)) :
    ∃ filled rest file, fill reader = (.ok (), filled) ∧ Live content len next (rest + 1) filled ∧
      filled.file.serveRead next len = (.ok data, file) ∧
      (data = [] → after = { filled with file, inflight := [], reachedEof := true }) ∧
      (data ≠ [] → after = { filled with file, inflight := windows len rest (next + len) }) := by
  by_cases hopen : reader.file.isOpen = false
  · rw [tryNext, if_pos hopen] at h
    exact nomatch congrArg Prod.fst h
  rw [tryNext, if_neg hopen] at h
  rcases hfill : fill reader with ⟨info | _, filled⟩
  · rw [hfill] at h
    exact nomatch congrArg Prod.fst h
  obtain ⟨rest, hfilled⟩ := fill_live hlive hfill
  have hinflight : filled.inflight = { offset := next, len } :: windows len rest (next + len) :=
    hfilled.inflight_eq
  simp only [hfill, hinflight] at h
  rcases hserve : filled.file.serveRead next len with ⟨status | received, file⟩
  · rw [hserve] at h
    exact nomatch congrArg Prod.fst h
  rw [hserve] at h
  refine ⟨filled, rest, file, rfl, hfilled, ?_⟩
  rcases received with _ | ⟨byte, received⟩
  · obtain ⟨hdata, rfl⟩ := Prod.mk.inj h
    obtain rfl := Except.ok.inj hdata
    exact ⟨hserve, fun _ ↦ rfl, fun hne ↦ absurd rfl hne⟩
  · obtain ⟨hdata, rfl⟩ := Prod.mk.inj h
    obtain rfl := Except.ok.inj hdata
    exact ⟨hserve, fun hnil ↦ absurd hnil (by simp), fun _ ↦ rfl⟩

/-- The reply is full exactly when it is the whole range. -/
theorem fullReply_iff {reader filled : ReadAhead} {aio : AioRead} {rest : List AioRead}
    {data : Bytes} {file : RemoteFile} (hfill : fill reader = (.ok (), filled))
    (hinflight : filled.inflight = aio :: rest)
    (hserve : filled.file.serveRead aio.offset aio.len = (.ok data, file)) :
    FullReply reader ↔ data = filled.file.range aio.offset aio.len := by
  constructor
  · intro hall
    have heq := hall aio rest data (by rw [hfill]) (by rw [hfill, hinflight])
      (by rw [hfill, hserve])
    rwa [hfill] at heq
  · intro heq other others received _ hothers hreceived
    rw [hfill, hinflight] at hothers
    obtain ⟨rfl, rfl⟩ := List.cons.inj hothers
    rw [hfill, hserve] at hreceived
    rw [hfill, ← heq]
    exact (Except.ok.inj hreceived).symm

/-- A call of a live reader that succeeds delivers a prefix of the range at
`next`, all of it exactly when the reply is full; an empty range ends the reader,
any other one moves it on by the length requested, not by the bytes delivered. -/
theorem tryNext_live {content data : Bytes} {len next count : ℕ} {reader after : ReadAhead}
    (hlen : 0 < len) (hlive : Live content len next count reader)
    (h : tryNext reader = (.ok data, after)) :
    data <+: (content.drop next).take len ∧
      (FullReply reader ↔ data = (content.drop next).take len) ∧
      (data = [] → Ended content next after) ∧
      (data ≠ [] → ∃ count', Live content len (next + len) count' after) := by
  obtain ⟨filled, rest, file, hfill, hfilled, hserve, hnil, hcons⟩ := tryNext_waits hlive h
  have hrange : filled.file.range next len = (content.drop next).take len := by
    rw [RemoteFile.range, hfilled.content_eq]
  obtain ⟨hinitial, hempty⟩ := RemoteFile.serveRead_ok hserve
  have hfull := fullReply_iff hfill hfilled.inflight_eq hserve
  rw [hrange] at hinitial hempty hfull
  refine ⟨hinitial, hfull, fun hdata ↦ ?_, fun hdata ↦ ⟨rest, ?_⟩⟩
  · rw [hnil hdata]
    exact ⟨(List.take_eq_nil_iff.mp (hempty hlen hdata)).resolve_left hlen.ne', rfl, rfl⟩
  · have hfile : file = { filled.file with replies := filled.file.replies.tail } := by
      rw [← RemoteFile.serveRead_file filled.file next len, hserve]
    have hoffset := hfilled.offset_eq
    rw [Nat.succ_mul] at hoffset
    rw [hcons hdata, hfile]
    exact ⟨hfilled.content_eq, hfilled.len_eq, rfl, by simp only; omega, hfilled.depth_pos,
      hfilled.notEof⟩

theorem tryNext_ended {content data : Bytes} {next : ℕ} {reader after : ReadAhead}
    (hended : Ended content next reader) (h : tryNext reader = (.ok data, after)) :
    data = [] ∧ after = reader ∧ FullReply reader := by
  have hfill : fill reader = (.ok (), reader) := by rw [fill, if_pos hended.eof]
  by_cases hopen : reader.file.isOpen = false
  · rw [tryNext, if_pos hopen] at h
    exact nomatch congrArg Prod.fst h
  · simp only [tryNext, if_neg hopen, hfill, hended.inflight_eq] at h
    obtain ⟨hdata, rfl⟩ := Prod.mk.inj h
    refine ⟨(Except.ok.inj hdata).symm, rfl, fun aio rest _ _ hinflight _ ↦ ?_⟩
    rw [hfill, hended.inflight_eq] at hinflight
    exact nomatch hinflight

/-! ### Whole runs -/

theorem chunks_cons {next : StateM ReadAhead (Result Bytes)} {reader after : ReadAhead}
    {data : Bytes} (calls : ℕ) (h : next reader = (.ok data, after)) :
    chunks next (calls + 1) reader = data :: chunks next calls after := by
  rw [chunks, h]

theorem chunks_nil {next : StateM ReadAhead (Result Bytes)} {reader after : ReadAhead}
    {info : ErrorInfo} (calls : ℕ) (h : next reader = (.error info, after)) :
    chunks next (calls + 1) reader = [] := by
  rw [chunks, h]

theorem delivers_nil (content : Bytes) (start : ℕ) : Delivers content start [] :=
  ⟨List.nil_prefix, fun h ↦ nomatch h⟩

/-- A chunk that is the next part of the content, and after it a delivery from
behind it on. -/
theorem Delivers.cons {content data : Bytes} {start : ℕ} {later : List Bytes} (hdata : data ≠ [])
    (hinitial : data <+: content.drop start) (h : Delivers content (start + data.length) later) :
    Delivers content start (data :: later) := by
  constructor
  · rw [List.flatten_cons]
    exact append_isPrefix_drop hinitial h.1
  · intro hmem
    obtain ⟨rest, hrest⟩ := hinitial
    have hlater := h.2 ((List.mem_cons.mp hmem).resolve_left fun heq ↦ hdata heq.symm)
    rw [List.flatten_cons, hlater, ← List.drop_drop, ← hrest, List.drop_left]

/-- A whole window, and after it a delivery from the next window on. -/
theorem Delivers.cons_window {content : Bytes} {start len : ℕ} {later : List Bytes}
    (hdata : (content.drop start).take len ≠ []) (h : Delivers content (start + len) later) :
    Delivers content start ((content.drop start).take len :: later) := by
  have hnext : content.drop (start + ((content.drop start).take len).length) =
      content.drop (start + len) := by
    calc content.drop (start + ((content.drop start).take len).length)
        = ((content.drop start).take len ++ (content.drop start).drop len).drop
            ((content.drop start).take len).length := by
          rw [List.take_append_drop, List.drop_drop]
      _ = content.drop (start + len) := by rw [List.drop_left, List.drop_drop]
  refine Delivers.cons hdata (List.take_prefix _ _) ?_
  rw [Delivers, hnext]
  exact h

/-- After the end of the file a reader delivers nothing. -/
theorem chunks_ended {content : Bytes} {next : ℕ} {reader : ReadAhead}
    (hended : Ended content next reader) (calls : ℕ) :
    (chunks tryNext calls reader).flatten = [] ∧ FullReplies calls reader := by
  induction calls with
  | zero => exact ⟨rfl, trivial⟩
  | succ calls ih =>
    rcases hcall : tryNext reader with ⟨info | data, after⟩
    · rw [chunks_nil calls hcall, FullReplies, hcall]
      refine ⟨rfl, fun aio rest _ _ hinflight _ ↦ ?_, trivial⟩
      have hfill : fill reader = (.ok (), reader) := by rw [fill, if_pos hended.eof]
      rw [hfill, hended.inflight_eq] at hinflight
      exact nomatch hinflight
    · obtain ⟨rfl, rfl, hfull⟩ := tryNext_ended hended hcall
      rw [chunks_cons calls hcall, FullReplies, hcall]
      exact ⟨ih.1, hfull, ih.2⟩

/-- A live reader never delivers more bytes than there are; with full replies it
delivers the content, and when it comes to the end having delivered as many
bytes, the replies were full. The induction is on the calls, each of which moves
the reader on by the length it requests. -/
theorem chunks_live {content : Bytes} {len : ℕ} (hlen : 0 < len) (calls : ℕ) :
    ∀ {next count : ℕ} {reader : ReadAhead}, Live content len next count reader →
      (chunks tryNext calls reader).flatten.length ≤ (content.drop next).length ∧
      (FullReplies calls reader → Delivers content next (chunks tryNext calls reader)) ∧
      ([] ∈ chunks tryNext calls reader →
        (chunks tryNext calls reader).flatten.length = (content.drop next).length →
          FullReplies calls reader) := by
  induction calls with
  | zero =>
    intro next count reader _
    exact ⟨Nat.zero_le _, fun _ ↦ delivers_nil content next, fun h ↦ nomatch h⟩
  | succ calls ih =>
    intro next count reader hlive
    rcases hcall : tryNext reader with ⟨info | data, after⟩
    · rw [chunks_nil calls hcall]
      exact ⟨Nat.zero_le _, fun _ ↦ delivers_nil content next, fun h ↦ nomatch h⟩
    · obtain ⟨hinitial, hfull, hnil, hcons⟩ := tryNext_live hlen hlive hcall
      have hreplies : FullReplies (calls + 1) reader ↔
          FullReply reader ∧ FullReplies calls after := by rw [FullReplies, hcall]
      rw [chunks_cons calls hcall, hreplies, List.flatten_cons, List.length_append]
      by_cases hdata : data = []
      · have hended := hnil hdata
        obtain ⟨hflat, hafter⟩ := chunks_ended hended calls
        subst hdata
        refine ⟨by simp [hflat], fun _ ↦ ?_, fun _ _ ↦ ⟨hfull.mpr ?_, hafter⟩⟩
        · rw [Delivers, hended.past, List.flatten_cons, hflat]
          exact ⟨List.prefix_rfl, fun _ ↦ rfl⟩
        · rw [hended.past, List.take_nil]
      · obtain ⟨count', hlater⟩ := hcons hdata
        obtain ⟨hbound, hforward, hback⟩ := ih hlater
        have hsplit : (content.drop next).take len ++ content.drop (next + len) =
            content.drop next := by
          rw [← List.drop_drop, List.take_append_drop]
        have hsum := congrArg List.length hsplit
        rw [List.length_append] at hsum
        have hshort := hinitial.length_le
        have hmember : [] ∈ data :: chunks tryNext calls after →
            [] ∈ chunks tryNext calls after := fun hmem ↦
          (List.mem_cons.mp hmem).resolve_left fun h ↦ hdata h.symm
        refine ⟨by omega, fun ⟨hreply, hrest⟩ ↦ ?_, fun hmem hlength ↦ ⟨?_, ?_⟩⟩
        · have hwindow := hfull.mp hreply
          rw [hwindow] at hdata ⊢
          exact (hforward hrest).cons_window hdata
        · exact hfull.mpr (hinitial.eq_of_length (by omega))
        · exact hback (hmember hmem) (by omega)

/-! ### The synchronous fallback -/

/-- At the end of the file the fallback delivers nothing and stays where it is. -/
theorem tryNextSync_ended {reader after : ReadAhead} {data : Bytes}
    (heof : reader.reachedEof = true) (h : tryNextSync reader = (.ok data, after)) :
    data = [] ∧ after = reader := by
  by_cases hopen : reader.file.isOpen = false
  · rw [tryNextSync, if_pos hopen] at h
    exact nomatch congrArg Prod.fst h
  · rw [tryNextSync, if_neg hopen, if_pos heof] at h
    obtain ⟨hdata, rfl⟩ := Prod.mk.inj h
    exact ⟨(Except.ok.inj hdata).symm, rfl⟩

/-- Before it the fallback is a read of the file. -/
theorem tryNextSync_reads {reader after : ReadAhead} {data : Bytes}
    (heof : reader.reachedEof = false) (h : tryNextSync reader = (.ok data, after)) :
    ∃ file, reader.file.tryRead reader.chunk = (.ok data, file) ∧
      after = { reader with file, reachedEof := data.isEmpty } := by
  by_cases hopen : reader.file.isOpen = false
  · rw [tryNextSync, if_pos hopen] at h
    exact nomatch congrArg Prod.fst h
  · rw [tryNextSync, if_neg hopen, if_neg (by simp [heof])] at h
    rcases hread : reader.file.tryRead reader.chunk with ⟨info | received, file⟩
    · rw [hread] at h
      exact nomatch congrArg Prod.fst h
    · rw [hread] at h
      obtain ⟨hdata, rfl⟩ := Prod.mk.inj h
      obtain rfl := Except.ok.inj hdata
      exact ⟨file, rfl, rfl⟩

theorem chunks_sync_ended (calls : ℕ) (reader : ReadAhead) (heof : reader.reachedEof = true) :
    (chunks tryNextSync calls reader).flatten = [] := by
  induction calls with
  | zero => rfl
  | succ calls ih =>
    rcases hcall : tryNextSync reader with ⟨info | data, after⟩
    · rw [chunks_nil calls hcall]
      rfl
    · obtain ⟨rfl, rfl⟩ := tryNextSync_ended heof hcall
      rw [chunks_cons calls hcall]
      exact ih

/-- The fallback moves on by what it got, so what it delivers is contiguous
whatever the replies are. -/
theorem chunks_sync (calls : ℕ) : ∀ reader : ReadAhead, 0 < reader.chunk →
    reader.reachedEof = false →
      Delivers reader.file.content reader.file.offset (chunks tryNextSync calls reader) := by
  induction calls with
  | zero => exact fun _ _ _ ↦ delivers_nil _ _
  | succ calls ih =>
    intro reader hchunk heof
    rcases hcall : tryNextSync reader with ⟨info | data, after⟩
    · rw [chunks_nil calls hcall]
      exact delivers_nil _ _
    · obtain ⟨file, hread, rfl⟩ := tryNextSync_reads heof hcall
      obtain ⟨hcontent, hoffset, hinitial, -, hempty⟩ := RemoteFile.tryRead_ok hread
      rw [chunks_cons calls hcall]
      by_cases hdata : data = []
      · subst hdata
        have hflat := chunks_sync_ended calls { reader with file, reachedEof := true } rfl
        rw [Delivers, List.flatten_cons, hempty hchunk rfl]
        exact ⟨by simp [hflat], fun _ ↦ by simpa using hflat⟩
      · have hlater := ih { reader with file, reachedEof := data.isEmpty } hchunk
          (by simpa using hdata)
        change Delivers file.content file.offset _ at hlater
        rw [hcontent, hoffset] at hlater
        exact hlater.cons hdata hinitial

/-! ### A reader from its construction on -/

theorem new_chunk_pos (file : RemoteFile) (chunk depth : ℕ) :
    0 < (new file chunk depth).chunk :=
  orDefault_pos (by decide)

theorem new_live (file : RemoteFile) (chunk depth : ℕ) :
    Live file.content (min (new file chunk depth).chunk file.maxLength) file.offset 0
      (new file chunk depth) where
  content_eq := rfl
  len_eq := rfl
  inflight_eq := rfl
  offset_eq := by rw [Nat.zero_mul, Nat.add_zero, new]
  depth_pos := orDefault_pos (by decide)
  notEof := rfl

/-- With full replies a reader delivers the file from its offset on, and the same
bytes as the fallback does whatever replies that one gets. A run that comes to
the end of the file delivers it only with full replies. -/
theorem readAhead_delivers (file : RemoteFile) (chunk depth calls : ℕ) :
    (FullReplies calls (new file chunk depth) →
      Delivers file.content file.offset (chunks tryNext calls (new file chunk depth))) ∧
    ([] ∈ chunks tryNext calls (new file chunk depth) →
      (Delivers file.content file.offset (chunks tryNext calls (new file chunk depth)) ↔
        FullReplies calls (new file chunk depth))) ∧
    ∀ replies : List Reply, ∀ syncCalls : ℕ,
      Delivers file.content file.offset
        (chunks tryNextSync syncCalls (new { file with replies } chunk depth)) ∧
      (FullReplies calls (new file chunk depth) → [] ∈ chunks tryNext calls (new file chunk depth) →
        [] ∈ chunks tryNextSync syncCalls (new { file with replies } chunk depth) →
          (chunks tryNext calls (new file chunk depth)).flatten =
            (chunks tryNextSync syncCalls (new { file with replies } chunk depth)).flatten) := by
  have hlen : 0 < min (new file chunk depth).chunk file.maxLength :=
    lt_min (new_chunk_pos file chunk depth) file.maxLength_pos
  obtain ⟨-, hforward, hback⟩ := chunks_live hlen calls (new_live file chunk depth)
  refine ⟨hforward, fun hend ↦ ⟨fun hdelivers ↦ ?_, hforward⟩, fun replies syncCalls ↦ ?_⟩
  · exact hback hend (congrArg List.length (hdelivers.2 hend))
  · have hsync := chunks_sync syncCalls (new { file with replies } chunk depth)
      (new_chunk_pos _ chunk depth) rfl
    refine ⟨hsync, fun hfull hend hendSync ↦ ?_⟩
    rw [(hforward hfull).2 hend, hsync.2 hendSync]
    rfl

/-- A file whose first read is answered with one of the two bytes asked for. -/
def shortFirstReply : RemoteFile where
  content := [1, 2, 3, 4]
  replies := [.bytes 1]

/-- The byte the reply is short of is never delivered, and the reader then reports
the end of the file. -/
theorem shortFirstReply_skips_byte :
    chunks tryNext 3 (new shortFirstReply 2 2) = [[1], [3, 4], []] ∧
      ¬ Delivers shortFirstReply.content shortFirstReply.offset
        (chunks tryNext 3 (new shortFirstReply 2 2)) ∧
      chunks tryNextSync 4 (new shortFirstReply 2 2) = [[1], [2, 3], [4], []] := by
  have hrun : chunks tryNext 3 (new shortFirstReply 2 2) = [[1], [3, 4], []] := by
    decide +kernel
  refine ⟨hrun, fun hdelivers ↦ ?_, by decide +kernel⟩
  have hwhole := hdelivers.2 (by rw [hrun]; decide)
  rw [hrun] at hwhole
  exact absurd hwhole (by decide)

end ReadAhead

end LibSshpp.Sftp
