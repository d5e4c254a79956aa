import LibSshpp.Sftp.FileCalls
import LibSshpp.SftpServer.ReadRequests

/-!
A `File` at one end and this server at the other. The client's results are stated for files of
servers that answer a read before the end of the file with a non-empty part of what was asked
for; here the server is shown to be one of these, over any run of calls on a file.
-/

set_option autoImplicit false
set_option relaxedAutoImplicit false

namespace LibSshpp.SftpServer

open Posix Sftp Program

/-- A `File` whose requests this server answers, with the mark libssh makes once it was told of
the end of the file. -/
structure ServedStream where
  file : ServedFile
  eof : Bool := false

namespace ServedStream

variable (table : HandleTable) (options : Options)

/-- The request of `sftp_read`. -/
def readRequest (stream : ServedStream) (length : ℕ) : ClientMessage where
  type := fxpRead
  handle := stream.file.handle
  offset := stream.file.offset
  len := (min length stream.file.maxLength).toUInt32

/-- The server has answered a request. -/
def request (stream : ServedStream) (message : ClientMessage) : ServedStream :=
  { stream with file := stream.file.request table options message }

/-- What libssh makes of the answers to a READ, in the state they left. -/
def received (served : ServedStream) : List Reply → Except ℤ Bytes × ServedStream
  | [.data bytes] =>
    (.ok bytes, { served with
      file := { served.file with offset := served.file.offset + bytes.length.toUInt64 } })
  | [.status .eof _] => (.ok [], { served with eof := true })
  | [.status code _] => (.error code.number, served)
  | _ => (.error (-1), served)

/-- `sftp_read`: nothing once the end was seen, else one request at the offset, which advances
by what was read. -/
def sftpRead (stream : ServedStream) (length : ℕ) : Except ℤ Bytes × ServedStream :=
  if stream.eof then (.ok [], stream)
  else (stream.request table options (stream.readRequest length)).received
    (answers table options (stream.readRequest length) stream.file.world)

/-- `File::try_read`. -/
def tryRead (length : ℕ) : StateM ServedStream (Result Bytes) := fun stream ↦
  if stream.file.isOpen = false then
    (.error { code := .ssh .invalidHandle, operation := "File::try_read" }, stream)
  else match stream.sftpRead table options length with
    | (.error status, stream) => (.error (makeSftpErrorInfo status {} "sftp_read"), stream)
    | (.ok data, stream) => (.ok data, stream)

/-- `File::try_write`. -/
def tryWrite (data : Bytes) : StateM ServedStream (Result ℕ) := fun stream ↦
  ((stream.file.tryWrite table options data).1,
    { stream with file := (stream.file.tryWrite table options data).2 })

/-- Sets the offset of an open file, which also forgets the end of the file. -/
def placeAt (operation : String) (offset : UInt64) : StateM ServedStream (Result Unit) :=
  fun stream ↦
    if stream.file.isOpen = false then
      (.error { code := .ssh .invalidHandle, operation := operation }, stream)
    else (.ok (), { file := { stream.file with offset := offset }, eof := false })

/-- `File::try_seek`. -/
def trySeek (offset : UInt64) : StateM ServedStream (Result Unit) :=
  placeAt "File::try_seek" offset

/-- `File::try_rewind`. -/
def tryRewind : StateM ServedStream (Result Unit) := placeAt "File::try_rewind" 0

/-- `File::try_tell`. -/
def tryTell : StateM ServedStream (Result ℕ) := fun stream ↦
  if stream.file.isOpen = false then
    (.error { code := .ssh .invalidHandle, operation := "File::try_tell" }, stream)
  else (.ok stream.file.offset.toNat, stream)

def ops : FileOps ServedStream where
  tryRead := tryRead table options
  tryWrite := tryWrite table options
  trySeek := trySeek
  tryRewind := tryRewind
  tryTell := tryTell

/-- Both are one file: the server holds the content and the client stands at one offset of it.
The kernel may fail, but does nothing by halves. -/
structure Shows (target : OpenFile) (stream : ServedStream) (remote : RemoteFile) : Prop where
  isOpen : remote.isOpen = stream.file.isOpen
  offset : remote.offset = stream.file.offset.toNat
  maxLength : remote.maxLength = stream.file.maxLength
  opens : OpensFile table stream.file.world stream.file.handle target
  plain : target.flags.append = false
  content : stream.file.world.contents target = remote.content
  backed : stream.file.world.Backed
  whole : ∀ fault ∈ stream.file.world.faults, ∀ count, fault ≠ .short count
  eof : stream.eof = true → remote.content.length ≤ remote.offset

variable {table options} {target : OpenFile} {stream : ServedStream} {remote : RemoteFile}

theorem limit_of_whole {world : World} (h : ∀ fault ∈ world.faults, ∀ count, fault ≠ .short count)
    (size : ℕ) : world.fault.limit size = size := by
  unfold World.fault
  cases hfaults : world.faults with
  | nil => rfl
  | cons fault rest =>
    cases fault with
    | none => rfl
    | fail error => rfl
    | short count => exact absurd rfl (h _ (hfaults ▸ List.mem_cons_self) count)

/-- What a request leaves of a file that both ends see. -/
theorem Shows.served (h : Shows table target stream remote) {message : ClientMessage}
    {offset : UInt64} {content : Bytes}
    (hkeeps : KeepsOpen stream.file.world
      (serveMessage table options message stream.file.world).2)
    (hcontent : (serveMessage table options message stream.file.world).2.contents target = content)
    (eof : Bool) (heof : eof = true → content.length ≤ offset.toNat) :
    Shows table target
      { file := { stream.file.request table options message with offset := offset }, eof }
      { remote with content := content, offset := offset.toNat } where
  isOpen := h.isOpen
  offset := rfl
  maxLength := h.maxLength
  opens := (ServedFile.opensFile_congr hkeeps.fds hkeeps.slots).mpr h.opens
  plain := h.plain
  content := hcontent
  backed := serveMessage_backed table options message _ h.backed
  whole fault hfault := h.whole fault (hkeeps.faults fault hfault)
  eof := heof

/-- A request that changes no file leaves the content. -/
theorem Shows.request (h : Shows table target stream remote) {message : ClientMessage}
    (offset : UInt64)
    (hkeeps : KeepsOpen stream.file.world
      (serveMessage table options message stream.file.world).2)
    (hfs : (serveMessage table options message stream.file.world).2.fs = stream.file.world.fs)
    (eof : Bool) (heof : eof = true → remote.content.length ≤ offset.toNat) :
    Shows table target
      { file := { stream.file.request table options message with offset := offset }, eof }
      { remote with offset := offset.toNat } :=
  h.served hkeeps (h.content ▸ congrArg (fun fs : FileSystem ↦ (fs.inode target.ino).data) hfs)
    eof heof

/-- An offset that is one of a file moves on without wrapping. -/
theorem toNat_advanced {offset : UInt64} {count : ℕ} (hoffset : offset.toNat < 2 ^ 63)
    (hcount : count < 2 ^ 32) : (offset + count.toUInt64).toNat = offset.toNat + count := by
  have hsize : count < UInt64.size := hcount.trans (by decide)
  rw [UInt64.toNat_add, UInt64.toNat_ofNat_of_lt' hsize]
  exact Nat.mod_eq_of_lt (by omega)

/-! ### Reading -/

/-- The bytes a READ of a file gets are the ones the client's model has at its offset. -/
theorem Shows.readBytes (h : Shows table target stream remote) {file : OpenFile} {length : ℕ}
    (hmax : stream.file.maxLength < 2 ^ 32)
    (hreads : ReadsFrom table stream.file.world (stream.readRequest length) file) :
    stream.file.world.readBytes file (stream.readRequest length) =
      (remote.range remote.offset (min length remote.maxLength)).take readLimit := by
  obtain rfl := h.opens.unique hreads.held
  have hoffset : (stream.readRequest length).offset.toInt64.toNatClampNeg = remote.offset :=
    (toNatClampNeg_of_nonneg hreads.offset).1.trans h.offset.symm
  have hlen : (stream.readRequest length).len.toNat = min length remote.maxLength := by
    rw [h.maxLength]
    exact UInt32.toNat_ofNat_of_lt' ((min_le_right _ _).trans_lt hmax)
  rw [World.readBytes, h.content, hoffset, hlen, limit_of_whole h.whole, RemoteFile.range,
    List.take_take, min_comm]

/-- The reply of the client's model that a READ with bytes is. -/
theorem take_replyCount {bytes : Bytes} {requested limit : ℕ} (hlimit : 0 < limit)
    (hbytes : bytes.length ≤ requested) :
    bytes.take (RemoteFile.replyCount requested (some (.bytes limit))) = bytes.take limit := by
  have hcount : RemoteFile.replyCount requested (some (.bytes limit)) = min requested limit := by
    rw [RemoteFile.replyCount, max_eq_right (show 1 ≤ limit from hlimit)]
  rw [hcount, min_comm, ← List.take_take, List.take_of_length_le hbytes]

theorem tryRead_of_serves (file : RemoteFile) {served : RemoteFile} {length : ℕ} {data : Bytes}
    (hopen : file.isOpen = true)
    (h : file.serveRead file.offset (min length file.maxLength) = (.ok data, served)) :
    file.tryRead length =
      (.ok data, { served with offset := served.offset + data.length }) := by
  rw [RemoteFile.tryRead, if_neg (by rw [hopen]; exact Bool.noConfusion), RemoteFile.sftpRead, h]

theorem tryRead_of_fails (file : RemoteFile) {served : RemoteFile} {length : ℕ} {status : ℤ}
    (hopen : file.isOpen = true)
    (h : file.serveRead file.offset (min length file.maxLength) = (.error status, served)) :
    file.tryRead length = (.error (makeSftpErrorInfo status {} "sftp_read"), served) := by
  rw [RemoteFile.tryRead, if_neg (by rw [hopen]; exact Bool.noConfusion), RemoteFile.sftpRead, h]

/-- The client's model of a server that answers a read as this one does. -/
theorem tryRead_feed_bytes (hopen : remote.isOpen = true) (length : ℕ)
    (rest : List Sftp.Reply) {bytes : Bytes}
    (hbytes : bytes = (remote.range remote.offset (min length remote.maxLength)).take readLimit) :
    (remote.feed (.bytes readLimit :: rest)).tryRead length =
      (.ok bytes, RemoteFile.feed { remote with offset := remote.offset + bytes.length } rest) := by
  have hlength : (remote.range remote.offset (min length remote.maxLength)).length ≤
      min length remote.maxLength := by
    rw [RemoteFile.range, List.length_take]
    exact min_le_left _ _
  have hserve : (remote.feed (.bytes readLimit :: rest)).serveRead remote.offset
      (min length remote.maxLength) = (.ok bytes, remote.feed rest) := by
    rw [hbytes, ← take_replyCount (by decide) hlength]
    rfl
  exact tryRead_of_serves (remote.feed (.bytes readLimit :: rest)) hopen hserve

/-- Behind the end there is nothing to read. -/
theorem range_of_end (h : remote.content.length ≤ remote.offset) (length : ℕ) :
    remote.range remote.offset length = [] := by
  rw [RemoteFile.range, List.drop_eq_nil_of_le h, List.take_nil]

/-- A read gets nothing only at the end. -/
theorem end_of_range {length : ℕ} (hlength : 0 < length)
    (h : (remote.range remote.offset (min length remote.maxLength)).take readLimit = []) :
    remote.content.length ≤ remote.offset := by
  have hpos : 0 < min length remote.maxLength := lt_min hlength remote.maxLength_pos
  have hrange := (List.take_eq_nil_iff.mp h).resolve_left (by decide)
  rw [RemoteFile.range] at hrange
  exact List.drop_eq_nil_iff.mp ((List.take_eq_nil_iff.mp hrange).resolve_left hpos.ne')

/-- The read gets to the file. -/
theorem scriptsAt_of_reads {length : ℕ} (hlength : 0 < length)
    (h : Shows table target stream remote)
    (hremote : remote.isOpen = true) (hsee : stream.eof = false) {file : OpenFile}
    (hreads : ReadsFrom table stream.file.world (stream.readRequest length) file) :
    ScriptsAt RemoteFile.feed (Shows table target) (tryRead table options length)
      (fun file ↦ file.tryRead length) stream remote := by
  have hopen : ¬ stream.file.isOpen = false := by rw [← h.isOpen, hremote]; exact Bool.noConfusion
  have hmark : ¬ stream.eof = true := by rw [hsee]; exact Bool.noConfusion
  have hbytes := tryRead_feed_bytes hremote length
  obtain ⟨hfs, hkeeps⟩ := read_frame table options stream.file.world
    (rfl : (stream.readRequest length).type = fxpRead)
  have hanswers := read_answers table options rfl hreads
  rw [h.readBytes stream.file.maxLength_lt hreads] at hanswers
  cases hrange : (remote.range remote.offset (min length remote.maxLength)).take readLimit with
  | nil =>
    have hend := end_of_range hlength hrange
    have hread : tryRead table options length stream =
        (.ok [], { file := stream.file.request table options (stream.readRequest length)
                   eof := true }) := by
      rw [tryRead, if_neg hopen, sftpRead, if_neg hmark, hanswers, hrange]
      rfl
    refine ⟨[.bytes readLimit], { remote with offset := stream.file.offset.toNat }, ?_,
      fun rest ↦ ?_⟩
    · rw [hread]
      exact h.request stream.file.offset hkeeps hfs true fun _ ↦ h.offset ▸ hend
    · rw [hread, ← h.offset]
      exact hbytes rest hrange.symm
  | cons byte more =>
    have hread : tryRead table options length stream =
        (.ok (byte :: more), {
          file := { stream.file.request table options (stream.readRequest length) with
            offset := stream.file.offset + (byte :: more).length.toUInt64 }
          eof := stream.eof }) := by
      rw [tryRead, if_neg hopen, sftpRead, if_neg hmark, hanswers, hrange]
      rfl
    have hcount : (byte :: more).length ≤ 64 * 1024 := by
      rw [← hrange]
      exact List.length_take_le _ _
    have hoffset : (stream.file.offset + (byte :: more).length.toUInt64).toNat =
        remote.offset + (byte :: more).length := by
      rw [h.offset]
      exact toNat_advanced (toNatClampNeg_of_nonneg hreads.offset).2 (by omega)
    refine ⟨[.bytes readLimit], { remote with offset := remote.offset + (byte :: more).length }, ?_,
      fun rest ↦ ?_⟩
    · rw [hread, ← hoffset]
      exact h.request _ hkeeps hfs stream.eof fun hend ↦ absurd hend hmark
    · rw [hread]
      exact hbytes rest hrange.symm

/-- The read is refused. -/
theorem scriptsAt_of_refused {length : ℕ} (h : Shows table target stream remote)
    (hremote : remote.isOpen = true) (hsee : stream.eof = false)
    (hnone : ∀ file, ¬ ReadsFrom table stream.file.world (stream.readRequest length) file) :
    ScriptsAt RemoteFile.feed (Shows table target) (tryRead table options length)
      (fun file ↦ file.tryRead length) stream remote := by
  have hopen : ¬ stream.file.isOpen = false := by rw [← h.isOpen, hremote]; exact Bool.noConfusion
  have hmark : ¬ stream.eof = true := by rw [hsee]; exact Bool.noConfusion
  obtain ⟨hfs, hkeeps⟩ := read_frame table options stream.file.world
    (rfl : (stream.readRequest length).type = fxpRead)
  obtain ⟨code, text, hok, hend, hanswers⟩ := read_refused table options rfl hnone
  have hread : tryRead table options length stream =
      (.error (makeSftpErrorInfo code.number {} "sftp_read"), {
        file := stream.file.request table options (stream.readRequest length)
        eof := stream.eof }) := by
    rw [tryRead, if_neg hopen, sftpRead, if_neg hmark, hanswers]
    cases code with
    | ok => exact absurd rfl hok
    | eof => exact absurd rfl hend
    | _ => rfl
  refine ⟨[.failure code.number], { remote with offset := stream.file.offset.toNat }, ?_,
    fun rest ↦ ?_⟩
  · rw [hread]
    exact h.request stream.file.offset hkeeps hfs stream.eof fun hend ↦
      absurd hend hmark
  · rw [hread, ← h.offset]
    exact tryRead_of_fails (remote.feed (.failure code.number :: rest)) hremote rfl

theorem scripts_tryRead {length : ℕ} (hlength : 0 < length) :
    Scripts RemoteFile.feed (Shows table target) (tryRead table options length)
      fun file ↦ file.tryRead length := by
  intro stream remote h
  by_cases hopen : stream.file.isOpen = false
  · have hread : tryRead table options length stream = (.error {
        code := .ssh .invalidHandle, operation := "File::try_read" }, stream) := if_pos hopen
    refine ⟨[], remote, by rw [hread]; exact h, fun rest ↦ ?_⟩
    rw [hread]
    exact if_pos (h.isOpen.trans hopen)
  have hremote : remote.isOpen = true := by rw [h.isOpen]; simpa using hopen
  cases heof : stream.eof with
  | true =>
    have hread : tryRead table options length stream = (.ok [], stream) := by
      rw [tryRead, if_neg hopen, sftpRead, if_pos heof]
    refine ⟨[.bytes readLimit], remote, by rw [hread]; exact h, fun rest ↦ ?_⟩
    rw [hread]
    exact tryRead_feed_bytes hremote length rest (by rw [range_of_end (h.eof heof), List.take_nil])
  | false =>
    by_cases hreads : ∃ file, ReadsFrom table stream.file.world (stream.readRequest length) file
    · obtain ⟨file, hreads⟩ := hreads
      exact scriptsAt_of_reads hlength h hremote heof hreads
    · exact scriptsAt_of_refused h hremote heof (not_exists.mp hreads)

/-! ### Writing -/

theorem tryWrite_of_sftpWrite {data : Bytes} {result : Except ℤ ℕ} {after : ServedFile}
    (hopen : ¬ stream.file.isOpen = false)
    (h : stream.file.sftpWrite table options data = (result, after)) :
    tryWrite table options data stream =
      (result.mapError (makeSftpErrorInfo · {} "sftp_write"), { stream with file := after }) := by
  unfold tryWrite ServedFile.tryWrite
  rw [if_neg hopen, h]
  cases result <;> rfl

theorem tryWrite_of_remote (file : RemoteFile) {after : RemoteFile} {data : Bytes}
    {result : Except ℤ ℕ}
    (hopen : file.isOpen = true) (h : file.sftpWrite data = (result, after)) :
    RemoteFile.tryWrite data file =
      (result.mapError (makeSftpErrorInfo · {} "sftp_write"), after) := by
  rw [RemoteFile.tryWrite, if_neg (by rw [hopen]; exact Bool.noConfusion), h]
  cases result <;> rfl

theorem sftpWrite_of_bytes (file : RemoteFile) {data : Bytes} {count taken : ℕ}
    {rest : List Sftp.Reply} (h : file.replies = .bytes count :: rest)
    (htaken : RemoteFile.replyCount (min data.length file.maxLength) (some (.bytes count)) =
      taken) :
    file.sftpWrite data = (.ok taken, { file with
      content := patch 0 file.content file.offset (data.take taken)
      offset := file.offset + taken
      replies := rest }) := by
  subst htaken
  unfold RemoteFile.sftpWrite
  rw [h]
  rfl

/-- The client's model of a server that takes all of a request. -/
theorem sftpWrite_feed_all (remote : RemoteFile) (data : Bytes) (rest : List Sftp.Reply) :
    (remote.feed (.bytes (data.take remote.maxLength).length :: rest)).sftpWrite data =
      (.ok (data.take remote.maxLength).length, RemoteFile.feed { remote with
        content := patch 0 remote.content remote.offset (data.take remote.maxLength)
        offset := remote.offset + (data.take remote.maxLength).length } rest) := by
  have hcount : RemoteFile.replyCount (min data.length remote.maxLength)
      (some (.bytes (data.take remote.maxLength).length)) =
        (data.take remote.maxLength).length := by
    rw [RemoteFile.replyCount, List.length_take]
    omega
  have htake : data.take (data.take remote.maxLength).length = data.take remote.maxLength :=
    (List.prefix_iff_eq_take.mp (List.take_prefix _ _)).symm
  have hwrite := sftpWrite_of_bytes
    (remote.feed (.bytes (data.take remote.maxLength).length :: rest)) rfl hcount
  rw [htake] at hwrite
  exact hwrite

/-- Where the kernel does nothing by halves, a WRITE stores all of its payload at its offset. -/
theorem Shows.contents_of_writes (h : Shows table target stream remote) {data : Bytes}
    {file : OpenFile}
    (hwrites : WritesTo table options stream.file.world (stream.file.writeRequest data) file) :
    (serveMessage table options (stream.file.writeRequest data) stream.file.world).2.contents
        target =
      patch 0 remote.content remote.offset (data.take remote.maxLength) := by
  obtain rfl := h.opens.unique hwrites.held
  rw [contents_of_writesTo rfl h.backed hwrites, h.content, World.writeStart, h.plain,
    World.storedBytes, limit_of_whole h.whole, List.take_length,
    ServedFile.payload_writeRequest, h.maxLength, h.offset]
  exact congrArg (FileSystem.overwrite remote.content · _)
    (toNatClampNeg_of_nonneg hwrites.offset).1

theorem scripts_tryWrite (data : Bytes) :
    Scripts RemoteFile.feed (Shows table target) (tryWrite table options data)
      (RemoteFile.tryWrite data) := by
  intro stream remote h
  by_cases hopen : stream.file.isOpen = false
  · have hwrite : tryWrite table options data stream = (.error {
        code := .ssh .invalidHandle, operation := "File::try_write" }, stream) := by
      unfold tryWrite ServedFile.tryWrite
      rw [if_pos hopen]
    refine ⟨[], remote, by rw [hwrite]; exact h, fun rest ↦ ?_⟩
    rw [hwrite]
    exact if_pos (h.isOpen.trans hopen)
  have hremote : remote.isOpen = true := by rw [h.isOpen]; simpa using hopen
  have hkeeps := write_keepsOpen table options stream.file.world
    (rfl : (stream.file.writeRequest data).type = fxpWrite)
  by_cases hwrites : ∃ file,
      WritesTo table options stream.file.world (stream.file.writeRequest data) file
  · obtain ⟨file, hwrites⟩ := hwrites
    have hserved : stream.file.sftpWrite table options data =
        (.ok (data.take stream.file.maxLength).length,
          { stream.file.request table options (stream.file.writeRequest data) with
            offset :=
              stream.file.offset + (data.take stream.file.maxLength).length.toUInt64 }) := by
      rw [ServedFile.sftpWrite, (write_stores rfl hwrites).1]
    rw [← h.maxLength] at hserved
    have hcount : (data.take remote.maxLength).length < 2 ^ 32 :=
      h.maxLength ▸ (List.length_take_le _ _).trans_lt stream.file.maxLength_lt
    have hoffset : (stream.file.offset + (data.take remote.maxLength).length.toUInt64).toNat =
        remote.offset + (data.take remote.maxLength).length := by
      rw [h.offset]
      exact toNat_advanced (toNatClampNeg_of_nonneg hwrites.offset).2 hcount
    refine ⟨[.bytes (data.take remote.maxLength).length], { remote with
      content := patch 0 remote.content remote.offset (data.take remote.maxLength)
      offset := remote.offset + (data.take remote.maxLength).length }, ?_, fun rest ↦ ?_⟩
    · rw [tryWrite_of_sftpWrite hopen hserved, ← hoffset]
      refine h.served hkeeps (h.contents_of_writes hwrites) stream.eof fun hend ↦ ?_
      have hlength := h.eof hend
      rw [hoffset, length_patch]
      split_ifs <;> omega
    · rw [tryWrite_of_sftpWrite hopen hserved]
      exact tryWrite_of_remote (remote.feed (.bytes _ :: rest)) hremote
        (sftpWrite_feed_all remote data rest)
  · obtain ⟨⟨code, text, hok, hanswers⟩, hfs⟩ := write_refused rfl (not_exists.mp hwrites)
    have hserved : stream.file.sftpWrite table options data =
        (.error code.number,
          stream.file.request table options (stream.file.writeRequest data)) := by
      rw [ServedFile.sftpWrite, hanswers]
      cases code with
      | ok => exact absurd rfl hok
      | _ => rfl
    refine ⟨[.failure code.number], { remote with offset := stream.file.offset.toNat }, ?_,
      fun rest ↦ ?_⟩
    · rw [tryWrite_of_sftpWrite hopen hserved]
      exact h.request stream.file.offset hkeeps hfs stream.eof fun hend ↦
        h.offset ▸ h.eof hend
    · rw [tryWrite_of_sftpWrite hopen hserved, ← h.offset]
      exact tryWrite_of_remote (remote.feed (.failure code.number :: rest)) hremote rfl

/-! ### All calls -/

theorem scripts_placeAt (operation : String) (offset : UInt64) :
    Scripts RemoteFile.feed (Shows table target) (placeAt operation offset)
      (RemoteFile.placeAt operation offset) := by
  intro stream remote h
  by_cases hopen : stream.file.isOpen = false
  · have hplace : placeAt operation offset stream = (.error {
        code := .ssh .invalidHandle, operation := operation }, stream) := if_pos hopen
    refine ⟨[], remote, by rw [hplace]; exact h, fun rest ↦ ?_⟩
    rw [hplace]
    exact if_pos (h.isOpen.trans hopen)
  · have hplace : placeAt operation offset stream =
        (.ok (), { file := { stream.file with offset := offset }, eof := false }) := if_neg hopen
    refine ⟨[], { remote with offset := offset.toNat }, ?_, fun rest ↦ ?_⟩
    · rw [hplace]
      exact ⟨h.isOpen, rfl, h.maxLength, h.opens, h.plain, h.content, h.backed, h.whole,
        Bool.noConfusion⟩
    · rw [hplace]
      exact if_neg (h.isOpen ▸ hopen)

theorem scripts_tryTell :
    Scripts RemoteFile.feed (Shows table target) tryTell RemoteFile.tryTell := by
  intro stream remote h
  by_cases hopen : stream.file.isOpen = false
  · have htell : tryTell stream = (.error {
        code := .ssh .invalidHandle, operation := "File::try_tell" }, stream) := if_pos hopen
    refine ⟨[], remote, by rw [htell]; exact h, fun rest ↦ ?_⟩
    rw [htell]
    exact if_pos (h.isOpen.trans hopen)
  · have htell : tryTell stream = (.ok stream.file.offset.toNat, stream) := if_neg hopen
    refine ⟨[], remote, by rw [htell]; exact h, fun rest ↦ ?_⟩
    rw [htell, ← h.offset]
    exact if_neg (h.isOpen ▸ hopen)

theorem scripted_ops (table : HandleTable) (options : Options) :
    (ops table options).Scripted RemoteFile.feed (Shows table target) RemoteFile.ops where
  tryRead _ hlength := scripts_tryRead hlength
  tryWrite := scripts_tryWrite
  trySeek := scripts_placeAt _
  tryRewind := scripts_placeAt _ 0
  tryTell := scripts_tryTell

/-- The file as the client's model of a server has it, with the answers still to come. -/
def asRemote (stream : ServedStream) (target : OpenFile) (hmax : 0 < stream.file.maxLength)
    (replies : List Sftp.Reply) : RemoteFile where
  isOpen := stream.file.isOpen
  content := stream.file.world.contents target
  offset := stream.file.offset.toNat
  maxLength := stream.file.maxLength
  maxLength_pos := hmax
  replies := replies

/-- A handle of the server that is open on a file and not for appending, at which the client
stands anywhere, and a kernel that may fail but does nothing by halves. -/
structure OpenOn (table : HandleTable) (stream : ServedStream) (target : OpenFile) : Prop where
  opens : OpensFile table stream.file.world stream.file.handle target
  plain : target.flags.append = false
  backed : stream.file.world.Backed
  whole : ∀ fault ∈ stream.file.world.faults, ∀ count, fault ≠ .short count
  unseen : stream.eof = false
  requests : 0 < stream.file.maxLength

theorem OpenOn.shows (h : OpenOn table stream target) :
    Shows table target stream (stream.asRemote target h.requests []) where
  isOpen := rfl
  offset := rfl
  maxLength := rfl
  opens := h.opens
  plain := h.plain
  content := rfl
  backed := h.backed
  whole := h.whole
  eof hmark := by rw [h.unseen] at hmark; exact Bool.noConfusion hmark

/-- A run of calls makes no difference between this server and the client's model of one. -/
theorem OpenOn.answersTo_eq (h : OpenOn table stream target) (options : Options)
    (calls : List FileCall)
    (hasks : ∀ call ∈ calls, call.Asks) :
    ∃ replies after, Shows table target (answersTo (ops table options).call calls stream).2 after ∧
      answersTo RemoteFile.ops.call calls (stream.asRemote target h.requests replies) =
        ((answersTo (ops table options).call calls stream).1, after.feed []) := by
  obtain ⟨replies, after, hafter, hscripted⟩ := Scripts.answersTo calls
    (fun call hcall ↦ (scripted_ops table options).call (hasks call hcall)) stream _ h.shows
  refine ⟨replies, after, hafter, ?_⟩
  rw [← hscripted [], List.append_nil]
  rfl

end ServedStream

open ServedStream in
/-- A run of calls on a file gets the same answers from this server as from a server of the
client's model, and leaves the same content and the same offset. -/
theorem served_calls_conform (table : HandleTable) (options : Options) (stream : ServedStream)
    (target : OpenFile) (h : OpenOn table stream target) (calls : List FileCall)
    (hasks : ∀ call ∈ calls, call.Asks) :
    ∃ replies after, answersTo RemoteFile.ops.call calls
        (stream.asRemote target h.requests replies) =
      ((answersTo (ops table options).call calls stream).1, after) ∧
      after.content =
        (answersTo (ops table options).call calls stream).2.file.world.contents target ∧
      after.offset = (answersTo (ops table options).call calls stream).2.file.offset.toNat := by
  obtain ⟨replies, after, hafter, hconforms⟩ := h.answersTo_eq options calls hasks
  exact ⟨replies, after.feed [], hconforms, hafter.content.symm, hafter.offset⟩

open ServedStream in
/-- What a client wrote to this server it reads again at the same place: all of it if the read
succeeds, and nothing else if the kernel fails in the middle. -/
theorem served_data_read_back (table : HandleTable) (options : Options) (stream : ServedStream)
    (target : OpenFile) (h : OpenOn table stream target) (data : Bytes) (result : Result Unit)
    (buffer : Bytes)
    (hanswers : (answersTo (ops table options).call
        [.writeAll data, .seek stream.file.offset, .readExact data.length] stream).1 =
      [.done (.ok ()), .done (.ok ()), .filled (result, buffer)]) :
    buffer <+: data ∧ (result = .ok () → buffer = data) := by
  obtain ⟨replies, after, -, hconforms⟩ := h.answersTo_eq options
    [.writeAll data, .seek stream.file.offset, .readExact data.length] fun call hcall ↦ by
      simp only [List.mem_cons, List.not_mem_nil, or_false] at hcall
      obtain rfl | rfl | rfl := hcall <;> trivial
  refine @RemoteFile.readBack (stream.asRemote target h.requests replies) _ _ _ _ rfl ?_
  rw [hconforms]
  exact hanswers

theorem maxLength_default_lt : 32768 < 2 ^ 32 := by decide

/-- The file `/srv/f`, opened for reading and writing. -/
def openedStream : ServedStream where
  file := {
    handle := [0, 0, 0, 0]
    maxLength_lt := maxLength_default_lt
    world := stateAfter (serveMessage HandleTable.firstFree srvServer)
      [{ type := fxpOpen, filename := some (ascii "f"), flags := fxfRead ||| fxfWrite }]
      (World.begin singleFile [] [] []) }

def openedTarget : OpenFile where
  loc := [ascii "srv", ascii "f"]
  ino := 2
  isDir := false
  flags := { access := .readWrite }

theorem openedStream_openOn : openedStream.OpenOn HandleTable.firstFree openedTarget where
  opens := ⟨{ address := 0, fd := 0, path := ⟨true, [ascii "srv", ascii "f"]⟩ },
    by decide +kernel, rfl, by decide +kernel⟩
  plain := rfl
  backed := invariant_of_keeps (serveMessage_backed HandleTable.firstFree srvServer) _
    (singleFile_backed _)
  whole fault hfault := absurd hfault (by
    rw [show openedStream.file.world.faults = [] by decide +kernel]
    exact List.not_mem_nil)
  unseen := rfl
  requests := by decide

theorem served_calls_conform_hello :
    (answersTo (ServedStream.ops HandleTable.firstFree srvServer).call
        [.write (ascii "J"), .rewind, .read 5, .tell] openedStream).1 =
      [.written (.ok 1), .done (.ok ()), .read (.ok (ascii "Jello")), .position (.ok 5)] ∧
    ∃ replies after, answersTo RemoteFile.ops.call [.write (ascii "J"), .rewind, .read 5, .tell]
        (openedStream.asRemote openedTarget openedStream_openOn.requests replies) =
      ((answersTo (ServedStream.ops HandleTable.firstFree srvServer).call
        [.write (ascii "J"), .rewind, .read 5, .tell] openedStream).1, after) := by
  refine ⟨by decide +kernel, ?_⟩
  obtain ⟨replies, after, hanswers, -⟩ := served_calls_conform HandleTable.firstFree srvServer
    openedStream openedTarget openedStream_openOn [.write (ascii "J"), .rewind, .read 5, .tell]
    fun call hcall ↦ by
      simp only [List.mem_cons, List.not_mem_nil, or_false] at hcall
      obtain rfl | rfl | rfl | rfl := hcall
      · trivial
      · trivial
      · exact Nat.zero_lt_succ 4
      · trivial
  exact ⟨replies, after, hanswers⟩

theorem served_data_read_back_hey : ascii "Hey" <+: ascii "Hey" ∧
    ((.ok () : Result Unit) = .ok () → ascii "Hey" = ascii "Hey") :=
  served_data_read_back HandleTable.firstFree srvServer openedStream openedTarget
    openedStream_openOn (ascii "Hey") (.ok ()) (ascii "Hey") (by decide +kernel)

end LibSshpp.SftpServer
