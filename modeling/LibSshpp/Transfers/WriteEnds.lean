import LibSshpp.Forwarding.Pump
import LibSshpp.Posix.StreamSocket
import LibSshpp.Sftp.RemoteFile
import LibSshpp.Transfers.PrefixLaw

/-!
The ends that the rest of the library writes to: the writing side of a channel, a remote file
and a connected socket, each with its own account of how calls come out. Written to as lists
of bytes, they take what the loops over memory send to a peer that answers as they do.
-/

set_option autoImplicit false
set_option relaxedAutoImplicit false

namespace LibSshpp.Transfers

open Program Exec

variable {memory : ℕ → UInt8} {data : Span}

theorem length_bytesOf (memory : ℕ → UInt8) (span : Span) :
    (bytesOf memory span).length = span.length := by
  rw [bytesOf, List.length_map, List.length_range]

theorem bytesOf_take (memory : ℕ → UInt8) {span : Span} {count : ℕ} (h : count ≤ span.length) :
    (bytesOf memory span).take count = bytesOf memory ⟨span.start, count⟩ := by
  rw [bytesOf, bytesOf, ← List.map_take, List.take_range, min_eq_left h]

/-- What is left of the list of a range's bytes is the list of what is left of the range. -/
theorem bytesOf_drop (memory : ℕ → UInt8) (data : Span) (moved : ℕ) :
    ((bytesOf memory data).drop ((⟨0, (bytesOf memory data).length⟩ : Span).drop moved).start).take
        ((⟨0, (bytesOf memory data).length⟩ : Span).drop moved).length =
      bytesOf memory (data.drop moved) := by
  simp only [Span.drop, Nat.zero_add]
  have hall : ((bytesOf memory data).drop moved).length =
      (bytesOf memory data).length - moved := List.length_drop
  rw [← hall, List.take_length]
  refine List.ext_getElem (by rw [hall, length_bytesOf, length_bytesOf]) fun i hi _ ↦ ?_
  simp only [bytesOf, List.getElem_drop, List.getElem_map, List.getElem_range]
  rw [Nat.add_assoc]

/-- A list writer and a loop over memory, offered the same bytes, come out alike when each
call does. -/
theorem writeAll_simulates {τ ε δ : Type} (related : τ → Machine → Prop)
    (writeSome : Bytes → StateM τ (Except δ ℕ)) (piece : Span → StateM Machine (Except ε ℕ))
    (shortWrite : δ) (nothing : ε)
    (hstep : ∀ span writer machine, related writer machine →
      (writeSome (bytesOf memory span) writer).1.toOption = (piece span machine).1.toOption ∧
        related (writeSome (bytesOf memory span) writer).2 (piece span machine).2)
    (data : Span) {writer : τ} {machine : Machine} (hrelated : related writer machine) :
    (writeAll shortWrite writeSome (bytesOf memory data) writer).1.isOk =
        (transferLoop nothing piece data 0 machine).1.isOk ∧
      related (writeAll shortWrite writeSome (bytesOf memory data) writer).2
        (transferLoop nothing piece data 0 machine).2 := by
  rw [writeAll_eq_transferLoop]
  refine transferLoop_simulates (length_bytesOf memory data).symm shortWrite nothing
    (fun moved writer machine _ h ↦ ?_) 0 hrelated
  rw [bytesOf_drop]
  exact hstep (data.drop moved) writer machine h

/-! ### Peers that answer as an end does -/

/-- The peer whose call takes what `takes` says, or fails. -/
def peerTaking (takes : ℕ → ℕ → Option ℕ) : Peer where
  answer := fun call asked ↦
    match takes call asked with
    | none => { returns := -1 }
    | some count => { returns := (count : ℤ) }

/-- The machine after a call for a range of which so many bytes went out. -/
def Machine.after (machine : Machine) (span : Span) (count : ℕ) : Machine :=
  { machine with
    requests := machine.requests ++ [span]
    sent := machine.sent ++ bytesOf machine.memory ⟨span.start, count⟩ }

theorem peerTaking_transferOut (takes : ℕ → ℕ → Option ℕ) (span : Span) (machine : Machine) :
    ((peerTaking takes).transferOut span machine).2 =
      machine.after span ((takes machine.requests.length span.length).getD 0) := by
  simp only [Peer.transferOut, peerTaking, Machine.after]
  cases takes machine.requests.length span.length <;> rfl

theorem peerTaking_returns (takes : ℕ → ℕ → Option ℕ) (span : Span) (machine : Machine) :
    ((peerTaking takes).transferOut span machine).1.returns =
      (takes machine.requests.length span.length).elim (-1) fun count ↦ (count : ℤ) := by
  simp only [Peer.transferOut, peerTaking]
  cases takes machine.requests.length span.length <;> rfl

theorem peerTaking_throughHandle (takes : ℕ → ℕ → Option ℕ) (operation : String)
    (failure : Answer → ErrorInfo) (span : Span) (machine : Machine) :
    (throughHandle true operation ((peerTaking takes).transferOut span) failure
        machine).1.toOption = takes machine.requests.length span.length ∧
      (throughHandle true operation ((peerTaking takes).transferOut span) failure machine).2 =
        machine.after span ((takes machine.requests.length span.length).getD 0) := by
  rw [throughHandle_eq, if_neg (by decide), peerTaking_transferOut, peerTaking_returns]
  cases takes machine.requests.length span.length with
  | none => exact ⟨rfl, rfl⟩
  | some count => exact ⟨rfl, rfl⟩

theorem peerTaking_positiveOnly (takes : ℕ → ℕ → Option ℕ) (span : Span) (machine : Machine) :
    (positiveOnly ((peerTaking takes).transferOut span) machine).1.toOption =
        (takes machine.requests.length span.length).filter (0 < ·) ∧
      (positiveOnly ((peerTaking takes).transferOut span) machine).2 =
        machine.after span ((takes machine.requests.length span.length).getD 0) := by
  rw [positiveOnly_eq, peerTaking_transferOut, peerTaking_returns]
  rcases takes machine.requests.length span.length with _ | _ | count
  · exact ⟨rfl, rfl⟩
  · exact ⟨rfl, rfl⟩
  · exact ⟨rfl, rfl⟩

/-! ### The writing side of a channel -/

/-- What a call of `ssh_channel_write` takes, by the answer it is to have. -/
def takenByWriter : Option (Result ℕ) → ℕ → Option ℕ
  | none, asked => some asked
  | some (.ok count), asked => some (min count asked)
  | some (.error _), _ => none

theorem takenByWriter_le {answer : Option (Result ℕ)} {asked : ℕ} :
    (takenByWriter answer asked).getD 0 ≤ asked := by
  rcases answer with _ | info | count
  · exact le_rfl
  · exact Nat.zero_le _
  · exact min_le_right _ _

theorem forwarding_tryWriteSome (bytes : Bytes) (writer : Forwarding.ChannelWriter) :
    (Forwarding.tryWriteSome bytes writer).1.toOption =
        takenByWriter writer.answers.head? (bytes.length % 2 ^ 32) ∧
      (Forwarding.tryWriteSome bytes writer).2 = {
        answers := writer.answers.tail
        accepted := writer.accepted ++ bytes.take
          ((takenByWriter writer.answers.head? (bytes.length % 2 ^ 32)).getD 0) } := by
  obtain ⟨answers, accepted⟩ := writer
  rcases answers with _ | ⟨info | count, answers⟩
  · exact ⟨rfl, rfl⟩
  · refine ⟨rfl, ?_⟩
    change (⟨answers, accepted⟩ : Forwarding.ChannelWriter) = ⟨answers, accepted ++ []⟩
    rw [List.append_nil]
  · exact ⟨rfl, rfl⟩

/-- The writer has accepted what was sent, and has the answers of the calls to come. -/
structure WriterAgrees (start : Forwarding.ChannelWriter) (memory : ℕ → UInt8)
    (writer : Forwarding.ChannelWriter) (machine : Machine) : Prop where
  answers : writer.answers = start.answers.drop machine.requests.length
  memory : machine.memory = memory
  accepted : writer.accepted = start.accepted ++ machine.sent

theorem writerAgrees_step {start writer : Forwarding.ChannelWriter} {machine : Machine}
    (h : WriterAgrees start memory writer machine) (span : Span) :
    let peer := peerTaking fun call ↦ takenByWriter start.answers[call]?
    (Forwarding.tryWriteSome (bytesOf memory span) writer).1.toOption =
        (channelTryWriteSome true peer span machine).1.toOption ∧
      WriterAgrees start memory (Forwarding.tryWriteSome (bytesOf memory span) writer).2
        (channelTryWriteSome true peer span machine).2 := by
  dsimp only
  have hhead : writer.answers.head? = start.answers[machine.requests.length]? := by
    rw [h.answers, List.head?_drop]
  obtain ⟨htaken, hwriter⟩ := forwarding_tryWriteSome (bytesOf memory span) writer
  obtain ⟨hcount, hmachine⟩ := peerTaking_throughHandle
    (fun call ↦ takenByWriter start.answers[call]?) "Channel::try_write_some"
    (fun answer ↦ makeErrorInfo answer.sshError "ssh_channel_write" .channelClosed)
    ⟨span.start, span.length % 2 ^ 32⟩ machine
  rw [hhead, length_bytesOf] at htaken hwriter
  refine ⟨htaken.trans hcount.symm, ?_⟩
  rw [hwriter, channelTryWriteSome, hmachine]
  refine ⟨?_, h.memory, ?_⟩
  · rw [h.answers, List.tail_drop]
    simp [Machine.after]
  · have hle : (takenByWriter start.answers[machine.requests.length]?
        (span.length % 2 ^ 32)).getD 0 ≤ span.length :=
      takenByWriter_le.trans (Nat.mod_le _ _)
    simp only [Machine.after, h.accepted, h.memory, bytesOf_take memory hle, List.append_assoc]

/-- Written to by `try_write_all`, a channel that answers as the writer does takes the bytes
that the writer accepts, and both calls succeed or neither does. -/
theorem channelTryWriteAll_writer (writer : Forwarding.ChannelWriter) (memory : ℕ → UInt8)
    (data : Span) :
    let peer := peerTaking fun call ↦ takenByWriter writer.answers[call]?
    (Forwarding.tryWriteAll (bytesOf memory data) writer).1.isOk =
        (channelTryWriteAll true peer data { memory }).1.isOk ∧
      (Forwarding.tryWriteAll (bytesOf memory data) writer).2.accepted =
        writer.accepted ++ (channelTryWriteAll true peer data { memory }).2.sent := by
  dsimp only
  have hstart : WriterAgrees writer memory writer { memory } :=
    ⟨rfl, rfl, (List.append_nil _).symm⟩
  obtain ⟨hok, hagrees⟩ := writeAll_simulates (WriterAgrees writer memory) Forwarding.tryWriteSome
    (channelTryWriteSome true (peerTaking fun call ↦ takenByWriter writer.answers[call]?))
    (shortWrite "Channel::try_write_all") (shortWrite "Channel::try_write_all")
    (fun span _ _ h ↦ writerAgrees_step h span) data hstart
  exact ⟨hok, hagrees.accepted⟩

/-! ### A remote file -/

/-- What a call of `sftp_write` takes, by the reply it is to have. -/
def takenByFile (maxLength : ℕ) : Option Sftp.Reply → ℕ → Option ℕ
  | some (.failure _), _ => none
  | reply, asked => some (Sftp.RemoteFile.replyCount (min asked maxLength) reply)

theorem remoteFile_tryWrite {file : Sftp.RemoteFile} (hopen : file.isOpen = true)
    (bytes : Bytes) :
    (Sftp.RemoteFile.tryWrite bytes file).1.toOption =
        takenByFile file.maxLength file.replies.head? bytes.length ∧
      (Sftp.RemoteFile.tryWrite bytes file).2.replies = file.replies.tail ∧
      (Sftp.RemoteFile.tryWrite bytes file).2.isOpen = true ∧
      (Sftp.RemoteFile.tryWrite bytes file).2.maxLength = file.maxLength := by
  rw [Sftp.RemoteFile.tryWrite, if_neg (by simp [hopen]), Sftp.RemoteFile.sftpWrite]
  rcases file.replies.head? with _ | ⟨count | status⟩
  · exact ⟨rfl, rfl, hopen, rfl⟩
  · exact ⟨rfl, rfl, hopen, rfl⟩
  · exact ⟨rfl, rfl, hopen, rfl⟩

/-- The file has taken what was sent, and has the replies of the calls to come. -/
structure FileAgrees (start : Sftp.RemoteFile) (memory : ℕ → UInt8) (file : Sftp.RemoteFile)
    (machine : Machine) : Prop where
  isOpen : file.isOpen = true
  maxLength : file.maxLength = start.maxLength
  replies : file.replies = start.replies.drop machine.requests.length
  memory : machine.memory = memory
  took : start.Took machine.sent file

theorem fileAgrees_step {start file : Sftp.RemoteFile} {machine : Machine}
    (h : FileAgrees start memory file machine) (span : Span) :
    let peer := peerTaking fun call ↦ takenByFile start.maxLength start.replies[call]?
    (Sftp.RemoteFile.tryWrite (bytesOf memory span) file).1.toOption =
        (fileTryWrite true peer span machine).1.toOption ∧
      FileAgrees start memory (Sftp.RemoteFile.tryWrite (bytesOf memory span) file).2
        (fileTryWrite true peer span machine).2 := by
  dsimp only
  have hhead : file.replies.head? = start.replies[machine.requests.length]? := by
    rw [h.replies, List.head?_drop]
  obtain ⟨htaken, hreplies, hisOpen, hmaxLength⟩ :=
    remoteFile_tryWrite h.isOpen (bytesOf memory span)
  obtain ⟨hcount, hmachine⟩ := peerTaking_throughHandle
    (fun call ↦ takenByFile start.maxLength start.replies[call]?) "File::try_write"
    (fun answer ↦ makeSftpErrorInfo answer.sftpStatus answer.sshError "sftp_write") span machine
  rw [hhead, length_bytesOf, h.maxLength] at htaken
  refine ⟨htaken.trans hcount.symm, ?_⟩
  rw [fileTryWrite, hmachine]
  refine ⟨hisOpen, hmaxLength.trans h.maxLength, ?_, h.memory, ?_⟩
  · rw [hreplies, h.replies, List.tail_drop]
    simp [Machine.after]
  · have hlast : file.Took (bytesOf memory ⟨span.start,
        (takenByFile start.maxLength start.replies[machine.requests.length]? span.length).getD 0⟩)
        (Sftp.RemoteFile.tryWrite (bytesOf memory span) file).2 := by
      rcases hwrite : Sftp.RemoteFile.tryWrite (bytesOf memory span) file with
        ⟨info | count, after⟩
      · rw [hwrite] at htaken
        rw [← htaken]
        exact Sftp.RemoteFile.accepts_tryWrite.of_error hwrite
      · obtain ⟨hle, htook⟩ := Sftp.RemoteFile.accepts_tryWrite.of_ok hwrite
        rw [length_bytesOf] at hle
        rw [hwrite] at htaken
        rw [← htaken]
        change file.Took (bytesOf memory ⟨span.start, count⟩) after
        rw [← bytesOf_take memory hle]
        exact htook
    have hall := Sftp.RemoteFile.accepts_tryWrite.trans h.took hlast
    simp only [Machine.after, h.memory]
    exact hall

/-- Written to by `try_write_all`, a server that replies as the file does takes the bytes that
the file takes, and both calls succeed or neither does. -/
theorem fileTryWriteAll_file {file : Sftp.RemoteFile} (hopen : file.isOpen = true)
    (memory : ℕ → UInt8) (data : Span) :
    let peer := peerTaking fun call ↦ takenByFile file.maxLength file.replies[call]?
    (Sftp.RemoteFile.tryWriteAll (bytesOf memory data) file).1.isOk =
        (fileTryWriteAll true peer data { memory }).1.isOk ∧
      file.Took (fileTryWriteAll true peer data { memory }).2.sent
        (Sftp.RemoteFile.tryWriteAll (bytesOf memory data) file).2 := by
  dsimp only
  have hstart : FileAgrees file memory file { memory } :=
    ⟨hopen, rfl, rfl, rfl, Sftp.RemoteFile.accepts_tryWrite.refl file⟩
  obtain ⟨hok, hagrees⟩ := writeAll_simulates (FileAgrees file memory) Sftp.RemoteFile.tryWrite
    (fileTryWrite true (peerTaking fun call ↦ takenByFile file.maxLength file.replies[call]?))
    (shortWrite "File::try_write_all") (shortWrite "File::try_write_all")
    (fun span _ _ h ↦ fileAgrees_step h span) data hstart
  exact ⟨hok, hagrees.took⟩

/-! ### A connected socket -/

/-- What a call of `send` takes, by the size the socket is to move. -/
def takenBySocket (writable : Bool) (acceptances : List ℕ) (asked : ℕ) : Option ℕ :=
  if writable then some (min asked (Posix.pieceSize acceptances asked)) else none

/-- `send` as `send_exact` sees it. -/
def sendSome (bytes : Bytes) : StateM Posix.StreamSocket (Except Unit ℕ) := fun socket ↦
  match socket.send bytes with
  | (0, socket) => (.error (), socket)
  | (sent + 1, socket) => (.ok (sent + 1), socket)

theorem sendLoop_eq_writeLoop (rounds : ℕ) (bytes : Bytes) (socket : Posix.StreamSocket) :
    Posix.sendLoop rounds bytes socket =
      ((writeLoop () sendSome rounds bytes socket).1.isOk,
        (writeLoop () sendSome rounds bytes socket).2) := by
  induction rounds generalizing bytes socket with
  | zero => cases bytes <;> rfl
  | succ rounds ih =>
    cases bytes with
    | nil => rfl
    | cons byte bytes =>
      rcases hsend : socket.send (byte :: bytes) with ⟨_ | sent, after⟩
      · have hcall : sendSome (byte :: bytes) socket = (.error (), after) := by
          rw [sendSome, hsend]
        rw [writeLoop, bind_of_eq hcall, Posix.sendLoop, hsend]
        rfl
      · have hcall : sendSome (byte :: bytes) socket = (.ok (sent + 1), after) := by
          rw [sendSome, hsend]
        rw [writeLoop, bind_of_eq hcall, Posix.sendLoop, hsend]
        exact ih (bytes.drop sent) after

theorem sendSome_spec (bytes : Bytes) (socket : Posix.StreamSocket) :
    (sendSome bytes socket).1.toOption =
        (takenBySocket socket.writable socket.acceptances bytes.length).filter (0 < ·) ∧
      (sendSome bytes socket).2.writable = socket.writable ∧
      (socket.writable = true →
        (sendSome bytes socket).2.acceptances = socket.acceptances.tail) ∧
      (sendSome bytes socket).2.outgoing = socket.outgoing ++ bytes.take
        ((takenBySocket socket.writable socket.acceptances bytes.length).getD 0) := by
  by_cases hwritable : socket.writable = true
  · have hsend : socket.send bytes =
        (min bytes.length (Posix.pieceSize socket.acceptances bytes.length), { socket with
          acceptances := socket.acceptances.tail
          outgoing := socket.outgoing ++
            bytes.take (min bytes.length (Posix.pieceSize socket.acceptances bytes.length)) }) :=
      if_pos hwritable
    rw [sendSome, hsend, takenBySocket, if_pos hwritable]
    rcases min bytes.length (Posix.pieceSize socket.acceptances bytes.length) with _ | sent
    · exact ⟨rfl, rfl, fun _ ↦ rfl, rfl⟩
    · exact ⟨rfl, rfl, fun _ ↦ rfl, rfl⟩
  · have hsend : socket.send bytes = (0, socket) := if_neg hwritable
    rw [sendSome, hsend, takenBySocket, if_neg hwritable]
    exact ⟨rfl, rfl, fun h ↦ absurd h hwritable, (List.append_nil _).symm⟩

/-- The socket has taken what was sent, and has the sizes of the calls to come. -/
structure SocketAgrees (start : Posix.StreamSocket) (memory : ℕ → UInt8)
    (socket : Posix.StreamSocket) (machine : Machine) : Prop where
  writable : socket.writable = start.writable
  acceptances : start.writable = true →
    socket.acceptances = start.acceptances.drop machine.requests.length
  memory : machine.memory = memory
  outgoing : socket.outgoing = start.outgoing ++ machine.sent

theorem socketAgrees_step {start socket : Posix.StreamSocket} {machine : Machine}
    (h : SocketAgrees start memory socket machine) (span : Span) :
    let peer := peerTaking fun call ↦ takenBySocket start.writable (start.acceptances.drop call)
    (sendSome (bytesOf memory span) socket).1.toOption =
        (positiveOnly (peer.transferOut span) machine).1.toOption ∧
      SocketAgrees start memory (sendSome (bytesOf memory span) socket).2
        (positiveOnly (peer.transferOut span) machine).2 := by
  dsimp only
  have htakes : takenBySocket socket.writable socket.acceptances =
      takenBySocket start.writable (start.acceptances.drop machine.requests.length) := by
    funext asked
    rw [takenBySocket, takenBySocket, h.writable]
    split_ifs with hwritable
    · rw [h.acceptances hwritable]
    · rfl
  obtain ⟨htaken, hwritable, hacceptances, houtgoing⟩ := sendSome_spec (bytesOf memory span) socket
  obtain ⟨hcount, hmachine⟩ := peerTaking_positiveOnly
    (fun call ↦ takenBySocket start.writable (start.acceptances.drop call)) span machine
  rw [length_bytesOf, htakes] at htaken houtgoing
  refine ⟨htaken.trans hcount.symm, ?_⟩
  rw [hmachine]
  refine ⟨hwritable.trans h.writable, fun hstart ↦ ?_, h.memory, ?_⟩
  · rw [hacceptances (h.writable.trans hstart), h.acceptances hstart, List.tail_drop]
    simp [Machine.after]
  · have hle : (takenBySocket start.writable (start.acceptances.drop machine.requests.length)
        span.length).getD 0 ≤ span.length := by
      rw [takenBySocket]
      split_ifs
      · exact min_le_left _ _
      · exact Nat.zero_le _
    rw [houtgoing, h.outgoing, bytesOf_take memory hle, List.append_assoc, Machine.after, h.memory]

/-- Sent to by `send_exact`, a peer that takes the sizes the socket does gets the bytes that
the socket sends on, and both calls succeed or neither does. -/
theorem sendExact_socket (socket : Posix.StreamSocket) (memory : ℕ → UInt8) (data : Span) :
    let peer := peerTaking fun call ↦ takenBySocket socket.writable (socket.acceptances.drop call)
    (Posix.sendExact (bytesOf memory data) socket).1 =
        some (sendExact peer data { memory }).1 ∧
      (Posix.sendExact (bytesOf memory data) socket).2.outgoing =
        socket.outgoing ++ (sendExact peer data { memory }).2.sent := by
  dsimp only
  have hstart : SocketAgrees socket memory socket { memory } :=
    ⟨rfl, fun _ ↦ rfl, rfl, (List.append_nil _).symm⟩
  obtain ⟨hok, hagrees⟩ := writeAll_simulates (SocketAgrees socket memory) sendSome
    (fun span ↦ positiveOnly ((peerTaking fun call ↦
      takenBySocket socket.writable (socket.acceptances.drop call)).transferOut span)) () ()
    (fun span _ _ h ↦ socketAgrees_step h span) data hstart
  have hloop := sendLoop_eq_writeLoop (bytesOf memory data).length (bytesOf memory data) socket
  change some (Posix.sendLoop _ _ socket).1 = some _ ∧
    (Posix.sendLoop _ _ socket).2.outgoing = _
  rw [hloop]
  exact ⟨congrArg some hok, hagrees.outgoing⟩

end LibSshpp.Transfers
