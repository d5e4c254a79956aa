import LibSshpp.Foundation.Bytes
import LibSshpp.Foundation.Error
import LibSshpp.Program.Patch
import LibSshpp.Program.WriteAll
import LibSshpp.Sftp.Attributes

/-!
An open file on an SFTP server, seen through libssh, and the synchronous
operations of `File` on it. A server answers a read that does not start at the
end of the file with any non-empty prefix of the requested range, takes any
non-empty prefix of the data of a write, and may fail a request; the replies to
come are a schedule the program does not control.
-/

set_option autoImplicit false
set_option relaxedAutoImplicit false

namespace LibSshpp.Sftp

open Program

/-- How the server answers a request: with success for so many bytes, at least
one and at most what was asked, or with a failure and its status. -/
inductive Reply
  | bytes (count : ℕ)
  | failure (status : ℤ)
  deriving DecidableEq, Repr

/-- A `File` with the state libssh and the server keep for it: the content, the
attributes, the offset, the largest length of a request, the statuses of the
requests that cannot even be sent (a request beyond the list can), how many bytes
the asynchronous writes accept (beyond the list all that a request may hold), and
the replies (beyond the list in full). -/
structure RemoteFile where
  isOpen : Bool := true
  content : Bytes := []
  attributes : NativeAttributes := {}
  offset : ℕ := 0
  maxLength : ℕ := 262144
  maxLength_pos : 0 < maxLength := by decide
  unsendable : List (Option ℤ) := []
  accepts : List ℕ := []
  replies : List Reply := []
  deriving DecidableEq, Repr

/-- The bound a request has unless the server gives another. -/
theorem maxLength_default_pos : 0 < 262144 := by decide

namespace RemoteFile

/-- The number of bytes a reply is for, out of `requested` ones. -/
def replyCount (requested : ℕ) : Option Reply → ℕ
  | some (.bytes count) => min requested (max 1 count)
  | _ => requested

/-- The bytes of a range that the file has. -/
def range (file : RemoteFile) (offset len : ℕ) : Bytes := (file.content.drop offset).take len

/-- The server's reply to a read request; the empty one is end of file. -/
def serveRead (file : RemoteFile) (offset len : ℕ) : Except ℤ Bytes × RemoteFile :=
  match file.replies.head? with
  | some (.failure status) => (.error status, { file with replies := file.replies.tail })
  | reply =>
    (.ok ((file.range offset len).take (replyCount len reply)),
      { file with replies := file.replies.tail })

/-- `sftp_read`: one request at the offset, which advances by what was read. -/
def sftpRead (file : RemoteFile) (len : ℕ) : Except ℤ Bytes × RemoteFile :=
  match file.serveRead file.offset (min len file.maxLength) with
  | (.error status, file) => (.error status, file)
  | (.ok data, file) => (.ok data, { file with offset := file.offset + data.length })

/-- `File::try_read`. -/
def tryRead (file : RemoteFile) (len : ℕ) : Result Bytes × RemoteFile :=
  if file.isOpen = false then
    (.error { code := .ssh .invalidHandle, operation := "File::try_read" }, file)
  else match file.sftpRead len with
    | (.error status, file) => (.error (makeSftpErrorInfo status {} "sftp_read"), file)
    | (.ok data, file) => (.ok data, file)

/-- `File::try_stat`. -/
def tryStat (file : RemoteFile) : Result Attributes × RemoteFile :=
  if file.isOpen = false then
    (.error { code := .ssh .invalidHandle, operation := "File::try_stat" }, file)
  else
    let after := { file with replies := file.replies.tail }
    match file.replies.head? with
    | some (.failure status) => (.error (makeSftpErrorInfo status {} "sftp_fstat"), after)
    | _ => (.ok (attributesFromNative file.attributes), after)

/-- `sftp_write`: one request at the offset, which advances by what was taken. A
request that fails changes nothing. -/
def sftpWrite (file : RemoteFile) (data : Bytes) : Except ℤ ℕ × RemoteFile :=
  match file.replies.head? with
  | some (.failure status) => (.error status, { file with replies := file.replies.tail })
  | reply =>
    let count := replyCount (min data.length file.maxLength) reply
    (.ok count, { file with
      content := patch 0 file.content file.offset (data.take count)
      offset := file.offset + count
      replies := file.replies.tail })

/-- `File::try_write`. -/
def tryWrite (data : Bytes) : StateM RemoteFile (Result ℕ) := fun file ↦
  if file.isOpen = false then
    (.error { code := .ssh .invalidHandle, operation := "File::try_write" }, file)
  else match file.sftpWrite data with
    | (.error status, file) => (.error (makeSftpErrorInfo status {} "sftp_write"), file)
    | (.ok count, file) => (.ok count, file)

/-- `File::try_write_all`. -/
def tryWriteAll : Bytes → StateM RemoteFile (Result Unit) :=
  writeAll {
    code := .ssh .channelClosed, message := "short write"
    operation := "File::try_write_all" } tryWrite

/-! ### Replies to reads -/

theorem serveRead_file (file : RemoteFile) (offset len : ℕ) :
    (file.serveRead offset len).2 = { file with replies := file.replies.tail } := by
  unfold serveRead
  split <;> rfl

/-- A reply with data is a prefix of the range, and empty only when the range is. -/
theorem serveRead_ok {file after : RemoteFile} {offset len : ℕ} {data : Bytes}
    (h : file.serveRead offset len = (.ok data, after)) :
    data <+: file.range offset len ∧ (0 < len → data = [] → file.range offset len = []) := by
  unfold serveRead at h
  split at h
  · exact nomatch h
  · obtain ⟨hdata, -⟩ := Prod.mk.inj h
    obtain rfl := Except.ok.inj hdata
    refine ⟨List.take_prefix _ _, fun hlen hnil ↦ ?_⟩
    have hcount : replyCount len file.replies.head? ≠ 0 := by
      unfold replyCount
      split <;> omega
    exact (List.take_eq_nil_iff.mp hnil).resolve_left hcount

/-- A read at the offset delivers a prefix of what is left, nothing only when
nothing is left or asked for, and leaves the offset behind what it delivered. -/
theorem tryRead_ok {file after : RemoteFile} {len : ℕ} {data : Bytes}
    (h : file.tryRead len = (.ok data, after)) :
    after.content = file.content ∧ after.offset = file.offset + data.length ∧
      data <+: file.content.drop file.offset ∧ data.length ≤ len ∧
      (0 < len → data = [] → file.content.drop file.offset = []) := by
  by_cases hopen : file.isOpen = false
  · rw [tryRead, if_pos hopen] at h
    exact nomatch congrArg Prod.fst h
  rw [tryRead, if_neg hopen, sftpRead] at h
  rcases hserve : file.serveRead file.offset (min len file.maxLength) with
    ⟨status | received, served⟩
  · rw [hserve] at h
    exact nomatch congrArg Prod.fst h
  · obtain ⟨hinitial, hempty⟩ := serveRead_ok hserve
    have hserved := serveRead_file file file.offset (min len file.maxLength)
    rw [hserve] at h hserved
    obtain ⟨hdata, rfl⟩ := Prod.mk.inj h
    obtain rfl := Except.ok.inj hdata
    obtain rfl : served = { file with replies := file.replies.tail } := hserved
    refine ⟨rfl, rfl, hinitial.trans (List.take_prefix _ _), ?_, fun hlen hnil ↦ ?_⟩
    · have hlength := hinitial.length_le
      rw [range, List.length_take] at hlength
      omega
    · have hpos : 0 < min len file.maxLength := lt_min hlen file.maxLength_pos
      exact (List.take_eq_nil_iff.mp (hempty hpos hnil)).resolve_left hpos.ne'

/-- An open file on which no request fails. -/
structure NeverFails (file : RemoteFile) : Prop where
  isOpen : file.isOpen = true
  replies : ∀ reply ∈ file.replies, ∃ count, reply = .bytes count

theorem NeverFails.tryRead {file : RemoteFile} (h : file.NeverFails) (len : ℕ) :
    ∃ data after, file.tryRead len = (.ok data, after) ∧ after.NeverFails := by
  obtain ⟨data, hserve⟩ : ∃ data, file.serveRead file.offset (min len file.maxLength) =
      (.ok data, { file with replies := file.replies.tail }) := by
    unfold serveRead
    split
    · next status hhead =>
      obtain ⟨count, hcount⟩ := h.replies _ (List.mem_of_head? hhead)
      exact nomatch hcount
    · exact ⟨_, rfl⟩
  refine ⟨data, { file with replies := file.replies.tail, offset := file.offset + data.length },
    ?_, h.isOpen, fun reply hreply ↦ h.replies reply (List.mem_of_mem_tail hreply)⟩
  rw [RemoteFile.tryRead, if_neg (by rw [h.isOpen]; decide), sftpRead, hserve]

/-! ### Writes -/

/-- The data was written at the offset, which is behind it now. -/
structure Took (before : RemoteFile) (data : Bytes) (after : RemoteFile) : Prop where
  content : after.content = patch 0 before.content before.offset data
  offset : after.offset = before.offset + data.length

theorem sftpWrite_ok {file after : RemoteFile} {data : Bytes} {count : ℕ}
    (h : file.sftpWrite data = (.ok count, after)) :
    count ≤ data.length ∧ file.Took (data.take count) after := by
  unfold sftpWrite at h
  split at h
  · exact nomatch h
  · obtain ⟨hcount, rfl⟩ := Prod.mk.inj h
    obtain rfl := Except.ok.inj hcount
    have hle : replyCount (min data.length file.maxLength) file.replies.head? ≤ data.length := by
      unfold replyCount
      split <;> omega
    refine ⟨hle, rfl, ?_⟩
    rw [List.length_take_of_le hle]

theorem sftpWrite_error {file after : RemoteFile} {data : Bytes} {status : ℤ}
    (h : file.sftpWrite data = (.error status, after)) : file.Took [] after := by
  unfold sftpWrite at h
  split at h
  · obtain ⟨-, rfl⟩ := Prod.mk.inj h
    exact ⟨rfl, rfl⟩
  · exact nomatch h

theorem accepts_tryWrite : Accepts Took tryWrite where
  refl := fun _ ↦ ⟨rfl, rfl⟩
  trans := by
    intro before middle after first second hfirst hsecond
    constructor
    · rw [hsecond.content, hfirst.content, hfirst.offset, patch_append]
    · rw [hsecond.offset, hfirst.offset, List.length_append, Nat.add_assoc]
  of_ok := by
    intro data file count after h
    by_cases hopen : file.isOpen = false
    · rw [tryWrite, if_pos hopen] at h
      exact nomatch congrArg Prod.fst h
    rcases hwrite : file.sftpWrite data with ⟨status | taken, written⟩ <;>
      rw [tryWrite, if_neg hopen, hwrite] at h <;> obtain ⟨hresult, rfl⟩ := Prod.mk.inj h
    · exact nomatch hresult
    · obtain rfl := Except.ok.inj hresult
      exact sftpWrite_ok hwrite
  of_error := by
    intro data file info after h
    by_cases hopen : file.isOpen = false
    · rw [tryWrite, if_pos hopen] at h
      obtain ⟨-, rfl⟩ := Prod.mk.inj h
      exact ⟨rfl, rfl⟩
    rcases hwrite : file.sftpWrite data with ⟨status | taken, written⟩ <;>
      rw [tryWrite, if_neg hopen, hwrite] at h <;> obtain ⟨hresult, rfl⟩ := Prod.mk.inj h
    · exact sftpWrite_error hwrite
    · exact nomatch hresult

/-- A successful `try_write_all` has written all the data at the offset. -/
theorem tryWriteAll_ok {file after : RemoteFile} {data : Bytes}
    (h : tryWriteAll data file = (.ok (), after)) : file.Took data after := by
  have hwrote : Wrote Took file data (tryWriteAll data file).1 (tryWriteAll data file).2 :=
    accepts_tryWrite.writeAll_wrote data file
  rw [h] at hwrote
  exact hwrote

end RemoteFile

end LibSshpp.Sftp
