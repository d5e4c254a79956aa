import LibSshpp.Foundation.Bytes
import LibSshpp.Program.StateTriple
import Mathlib.Data.Nat.Notation

/-!
A connected stream socket seen from one end, and the exact-length transfer
loops over it. The peer's bytes arrive in pieces of unpredictable size, and
`send` may take any non-empty part of what it is given; both are schedules the
program does not control. `Follows` says that a program reading from the socket
computes a function of the byte stream alone, whatever the schedules are.
-/

set_option autoImplicit false
set_option relaxedAutoImplicit false

namespace LibSshpp.Posix

/-- The stream socket: what the peer still sends before the stream ends, the
sizes in which `recv` and `send` move bytes, whether `send` works at all, and
what it has taken so far. -/
structure StreamSocket where
  incoming : Bytes
  arrivals : List ℕ := []
  acceptances : List ℕ := []
  writable : Bool := true
  outgoing : Bytes := []
  deriving DecidableEq, Repr

/-- The size of the next transfer out of `available` requested bytes: the
schedule's next entry, at least one byte; an exhausted schedule moves all. -/
def pieceSize (schedule : List ℕ) (available : ℕ) : ℕ :=
  max 1 (min available (schedule.headD available))

/-- A program over one socket that may give up. -/
abbrev SocketM := OptionT (StateM StreamSocket)

/-- One `recv` of at most `len` bytes. The empty result stands for both end of
stream and error, which no caller tells apart. -/
def StreamSocket.recv (socket : StreamSocket) (len : ℕ) : Bytes × StreamSocket :=
  let size := pieceSize socket.arrivals len
  (socket.incoming.take size,
    { socket with incoming := socket.incoming.drop size, arrivals := socket.arrivals.tail })

/-- The loop of `recv_exact`, with `left` bytes to go; every round that does not
fail moves at least one byte, so `left` rounds are enough. -/
def recvLoop : ℕ → ℕ → Bytes → StreamSocket → Option Bytes × StreamSocket
  | _, 0, got, socket => (some got, socket)
  | 0, _ + 1, _, socket => (none, socket)
  | rounds + 1, left + 1, got, socket =>
    match socket.recv (left + 1) with
    | ([], socket) => (none, socket)
    | (piece, socket) => recvLoop rounds (left + 1 - piece.length) (got ++ piece) socket

/-- `recv_exact`: the next `len` bytes of the stream, or failure. -/
def recvExact (len : ℕ) : SocketM Bytes :=
  fun socket ↦ recvLoop len len [] socket

/-- One `send`: how many of the given bytes were taken, zero for an error. -/
def StreamSocket.send (socket : StreamSocket) (data : Bytes) : ℕ × StreamSocket :=
  if socket.writable then
    let size := min data.length (pieceSize socket.acceptances data.length)
    (size, { socket with
      acceptances := socket.acceptances.tail, outgoing := socket.outgoing ++ data.take size })
  else (0, socket)

/-- The loop of `send_exact`. -/
def sendLoop : ℕ → Bytes → StreamSocket → Bool × StreamSocket
  | _, [], socket => (true, socket)
  | 0, _ :: _, socket => (false, socket)
  | rounds + 1, byte :: data, socket =>
    match socket.send (byte :: data) with
    | (0, socket) => (false, socket)
    | (sent, socket) => sendLoop rounds ((byte :: data).drop sent) socket

/-- `send_exact`: whether all bytes could be sent. -/
def sendExact (data : Bytes) : SocketM Bool :=
  fun socket ↦ let (sent, socket) := sendLoop data.length data socket; (some sent, socket)

/-! ### The transfer loops -/

theorem one_le_pieceSize (schedule : List ℕ) (available : ℕ) :
    1 ≤ pieceSize schedule available := le_max_left _ _

theorem pieceSize_le (schedule : List ℕ) {available : ℕ} (h : 0 < available) :
    pieceSize schedule available ≤ available :=
  max_le h (min_le_left _ _)

/-- The receiving loop delivers the next `left` bytes of the stream exactly when
it has that many, and takes nothing beyond them. The induction is on the rounds;
the bytes still to come shrink with the bytes still wanted. -/
theorem recvLoop_spec (rounds : ℕ) : ∀ (left : ℕ) (got : Bytes) (socket : StreamSocket),
    left ≤ rounds →
      (recvLoop rounds left got socket).2.writable = socket.writable ∧
      (left ≤ socket.incoming.length →
        (recvLoop rounds left got socket).1 = some (got ++ socket.incoming.take left) ∧
          (recvLoop rounds left got socket).2.incoming = socket.incoming.drop left) ∧
      (socket.incoming.length < left → (recvLoop rounds left got socket).1 = none) := by
  induction rounds with
  | zero =>
    intro left got socket hleft
    obtain rfl : left = 0 := by omega
    simp [recvLoop]
  | succ rounds ih =>
    intro left got socket hleft
    cases left with
    | zero => simp [recvLoop]
    | succ left =>
      have hpos := one_le_pieceSize socket.arrivals (left + 1)
      have hle := pieceSize_le socket.arrivals (Nat.succ_pos left)
      set size := pieceSize socket.arrivals (left + 1) with hsize
      rcases hpiece : socket.incoming.take size with _ | ⟨byte, piece⟩
      · have hempty : socket.incoming = [] := by
          rcases List.take_eq_nil_iff.mp hpiece with h | h
          · omega
          · exact h
        simp [recvLoop, StreamSocket.recv, ← hsize, hempty]
      · have hlen : (byte :: piece).length = min size socket.incoming.length := by
          rw [← hpiece, List.length_take]
        have hrun : recvLoop (rounds + 1) (left + 1) got socket =
            recvLoop rounds (left + 1 - (byte :: piece).length) (got ++ byte :: piece)
              { socket with
                incoming := socket.incoming.drop size, arrivals := socket.arrivals.tail } := by
          simp [recvLoop, StreamSocket.recv, ← hsize, hpiece]
        have hcons : 1 ≤ (byte :: piece).length := by simp
        obtain ⟨hwritable, hsome, hnone⟩ := ih (left + 1 - (byte :: piece).length)
          (got ++ byte :: piece)
          { socket with incoming := socket.incoming.drop size, arrivals := socket.arrivals.tail }
          (by omega)
        rw [hrun]
        refine ⟨hwritable, fun henough ↦ ?_, fun hshort ↦ hnone ?_⟩
        · have hfull : (byte :: piece).length = size := by omega
          obtain ⟨hvalue, hrest⟩ := hsome (by simp only [List.length_drop]; omega)
          rw [hvalue, hrest, hfull, ← hpiece]
          refine ⟨?_, by rw [List.drop_drop]; congr 1; omega⟩
          rw [List.append_assoc, ← List.take_add]
          congr 3
          omega
        · simp only [List.length_drop]
          omega

theorem recvExact_one {socket : StreamSocket} {byte : UInt8} {rest : Bytes}
    (h : socket.incoming = byte :: rest) :
    (recvExact 1 socket).1 = some [byte] ∧ (recvExact 1 socket).2.incoming = rest ∧
      (recvExact 1 socket).2.writable = socket.writable := by
  obtain ⟨hwritable, hsome, -⟩ := recvLoop_spec 1 1 [] socket le_rfl
  obtain ⟨hvalue, hrest⟩ := hsome (by simp [h])
  rw [h] at hvalue hrest
  exact ⟨hvalue, hrest, hwritable⟩

theorem sendLoop_spec (rounds : ℕ) : ∀ (data : Bytes) (socket : StreamSocket),
    data.length ≤ rounds → socket.writable = true →
      (sendLoop rounds data socket).1 = true ∧
        (sendLoop rounds data socket).2.incoming = socket.incoming ∧
          (sendLoop rounds data socket).2.writable = true := by
  induction rounds with
  | zero =>
    intro data socket hdata hwritable
    obtain rfl : data = [] := List.length_eq_zero_iff.mp (by omega)
    simp [sendLoop, hwritable]
  | succ rounds ih =>
    intro data socket hdata hwritable
    rcases data with _ | ⟨byte, data⟩
    · simp [sendLoop, hwritable]
    · have hpos := one_le_pieceSize socket.acceptances (byte :: data).length
      obtain ⟨size, hsize⟩ : ∃ size,
          min (byte :: data).length (pieceSize socket.acceptances (byte :: data).length) =
            size + 1 := by
        refine ⟨_, (Nat.succ_pred_eq_of_pos (lt_min (by simp) hpos)).symm⟩
      have hrun : sendLoop (rounds + 1) (byte :: data) socket =
          sendLoop rounds ((byte :: data).drop (size + 1))
            { socket with
              acceptances := socket.acceptances.tail
              outgoing := socket.outgoing ++ (byte :: data).take (size + 1) } := by
        simp only [sendLoop, StreamSocket.send, hwritable, if_true, hsize]
      rw [hrun]
      exact ih _ _ (by simp only [List.length_drop, List.length_cons] at hdata ⊢; omega) hwritable

/-! ### Programs that follow the stream -/

/-- A grammar of the byte stream: what the next bytes say, and the bytes after
them, when the stream has the expected form. -/
abbrev StreamGrammar := StateT Bytes Option

/-- The program computes what the grammar says of the incoming stream and leaves
exactly the grammar's rest on the socket, for every schedule of arrivals and
acceptances, as long as replies can be sent. -/
def Follows {α : Type} (program : SocketM α) (grammar : StreamGrammar α) : Prop :=
  ∀ socket : StreamSocket, socket.writable = true →
    (program socket).2.writable = true ∧
      match grammar socket.incoming with
      | some (value, rest) =>
        (program socket).1 = some value ∧ (program socket).2.incoming = rest
      | none => (program socket).1 = none

/-- The next `len` bytes of the stream. -/
def takeBytes (len : ℕ) : StreamGrammar Bytes :=
  fun stream ↦ if len ≤ stream.length then some (stream.take len, stream.drop len) else none

theorem follows_recvExact (len : ℕ) : Follows (recvExact len) (takeBytes len) := by
  intro socket hwritable
  obtain ⟨hkeep, hsome, hnone⟩ := recvLoop_spec len len [] socket le_rfl
  refine ⟨hkeep.trans hwritable, ?_⟩
  by_cases hlen : len ≤ socket.incoming.length
  · simpa [takeBytes, hlen, recvExact] using hsome hlen
  · simpa [takeBytes, hlen, recvExact] using hnone (by omega)

theorem follows_pure {α : Type} (value : α) :
    Follows (pure value : SocketM α) (pure value) :=
  fun _ hwritable ↦ ⟨hwritable, rfl, rfl⟩

theorem follows_failure {α : Type} : Follows (failure : SocketM α) failure :=
  fun _ hwritable ↦ ⟨hwritable, rfl⟩

theorem follows_sendExact (data : Bytes) : Follows (sendExact data) (pure true) := by
  intro socket hwritable
  obtain ⟨hsent, hincoming, hkeep⟩ := sendLoop_spec data.length data socket le_rfl hwritable
  exact ⟨hkeep, congrArg some hsent, hincoming⟩

/-- A program goes on with what its first part returns, unless that gave up. -/
theorem socket_bind {α β : Type} (program : SocketM α) (next : α → SocketM β)
    (socket : StreamSocket) :
    (program >>= next) socket =
      match (program socket).1 with
      | some value => next value (program socket).2
      | none => (none, (program socket).2) := by
  rcases hresult : program socket with ⟨_ | value, after⟩
  · exact Program.bind_of_none hresult
  · exact Program.bind_of_some hresult

theorem follows_bind {α β : Type} {program : SocketM α} {grammar : StreamGrammar α}
    {next : α → SocketM β} {nextGrammar : α → StreamGrammar β} (hfirst : Follows program grammar)
    (hnext : ∀ value, Follows (next value) (nextGrammar value)) :
    Follows (program >>= next) (grammar >>= nextGrammar) := by
  intro socket hwritable
  obtain ⟨hkeep, hfollow⟩ := hfirst socket hwritable
  have hgrammar : (grammar >>= nextGrammar) socket.incoming =
      match grammar socket.incoming with
      | some (value, rest) => nextGrammar value rest
      | none => none := by
    change (grammar socket.incoming).bind _ = _
    cases grammar socket.incoming <;> rfl
  rw [socket_bind, hgrammar]
  rcases hvalue : grammar socket.incoming with _ | ⟨value, rest⟩
  · rw [hvalue] at hfollow
    simp [show (program socket).1 = none from hfollow, hkeep]
  · rw [hvalue] at hfollow
    obtain ⟨hresult, hrest⟩ := hfollow
    rw [hresult]
    have hlast := hnext value (program socket).2 hkeep
    rw [hrest] at hlast
    exact hlast

/-! ### What grammars accept -/

theorem takeBytes_eq_some_iff {len : ℕ} {stream value rest : Bytes} :
    takeBytes len stream = some (value, rest) ↔ value.length = len ∧ stream = value ++ rest := by
  unfold takeBytes
  split_ifs with hlen
  · simp only [Option.some.injEq, Prod.mk.injEq]
    constructor
    · rintro ⟨rfl, rfl⟩
      exact ⟨List.length_take_of_le hlen, (List.take_append_drop len stream).symm⟩
    · rintro ⟨rfl, rfl⟩
      exact ⟨List.take_left, List.drop_left⟩
  · simp only [false_iff, not_and]
    rintro rfl rfl
    exact hlen (by simp)

theorem grammar_bind_eq_some_iff {α β : Type} {grammar : StreamGrammar α}
    {next : α → StreamGrammar β} {stream : Bytes} {result : β × Bytes} :
    (grammar >>= next) stream = some result ↔
      ∃ value rest, grammar stream = some (value, rest) ∧ next value rest = some result := by
  change (grammar stream).bind _ = some result ↔ _
  rcases grammar stream with _ | ⟨value, rest⟩
  · simp
  · simp only [Option.bind_some, Option.some.injEq, Prod.mk.injEq]
    exact ⟨fun h ↦ ⟨value, rest, ⟨rfl, rfl⟩, h⟩,
      fun ⟨_, _, ⟨hvalue, hrest⟩, h⟩ ↦ hvalue ▸ hrest ▸ h⟩

theorem grammar_pure_eq_some_iff {α : Type} {value : α} {stream : Bytes} {result : α × Bytes} :
    (pure value : StreamGrammar α) stream = some result ↔ (value, stream) = result := by
  change some (value, stream) = some result ↔ _
  exact Option.some_inj

theorem grammar_guarded_eq_some_iff {α : Type} {condition : Prop} [Decidable condition]
    {grammar : StreamGrammar α} {stream : Bytes} {result : α × Bytes} :
    (if condition then failure else grammar : StreamGrammar α) stream = some result ↔
      ¬ condition ∧ grammar stream = some result := by
  split_ifs with hcondition
  · simp only [hcondition, not_true_eq_false, false_and, iff_false]
    exact fun h ↦ nomatch h
  · simp [hcondition]

/-! ### What programs return -/

/-- Whatever the program returns has the property. -/
def Yields {α : Type} (program : SocketM α) (property : α → Prop) : Prop :=
  ∀ (socket : StreamSocket) (value : α), (program socket).1 = some value → property value

theorem yields_bind {α β : Type} {program : SocketM α} {next : α → SocketM β}
    {property : β → Prop} (h : ∀ value, Yields (next value) property) :
    Yields (program >>= next) property := by
  intro socket value hvalue
  rw [socket_bind] at hvalue
  cases hfirst : (program socket).1 with
  | none => rw [hfirst] at hvalue; exact nomatch hvalue
  | some first => rw [hfirst] at hvalue; exact h first _ value hvalue

/-- A program that receives first runs the rest on a socket that is writable
exactly when its own is. -/
theorem recvExact_bind {β : Type} {len : ℕ} {next : Bytes → SocketM β} {socket : StreamSocket}
    {value : β} (h : ((recvExact len >>= next) socket).1 = some value) :
    ∃ (received : Bytes) (after : StreamSocket), after.writable = socket.writable ∧
      (next received after).1 = some value := by
  rw [socket_bind] at h
  cases hfirst : (recvExact len socket).1 with
  | none => rw [hfirst] at h; exact nomatch h
  | some received =>
    rw [hfirst] at h
    exact ⟨received, _, (recvLoop_spec len len [] socket le_rfl).1, h⟩

theorem sendExact_unwritable {byte : UInt8} {data : Bytes} {socket : StreamSocket}
    (h : socket.writable = false) : sendExact (byte :: data) socket = (some false, socket) := by
  simp [sendExact, sendLoop, StreamSocket.send, h]

/-! ### Programs by cases -/

theorem follows_ite {α : Type} {condition : Prop} [Decidable condition]
    {program other : SocketM α} {grammar otherGrammar : StreamGrammar α}
    (hpos : Follows program grammar) (hneg : Follows other otherGrammar) :
    Follows (if condition then program else other)
      (if condition then grammar else otherGrammar) := by
  split_ifs
  · exact hpos
  · exact hneg

/-! ### Programs that only receive -/

/-- The program does not depend on whether the socket can be written to. -/
def Receives {α : Type} (program : SocketM α) : Prop :=
  ∀ (socket : StreamSocket) (flag : Bool), program { socket with writable := flag } =
    ((program socket).1, { (program socket).2 with writable := flag })

theorem receives_pure {α : Type} (value : α) : Receives (pure value : SocketM α) :=
  fun _ _ ↦ rfl

theorem receives_failure {α : Type} : Receives (failure : SocketM α) := fun _ _ ↦ rfl

theorem receives_bind {α β : Type} {program : SocketM α} {next : α → SocketM β}
    (hfirst : Receives program) (hnext : ∀ value, Receives (next value)) :
    Receives (program >>= next) := by
  intro socket flag
  rw [socket_bind, socket_bind, hfirst socket flag]
  cases (program socket).1 with
  | none => rfl
  | some value => exact hnext value (program socket).2 flag

theorem receives_ite {α : Type} {condition : Prop} [Decidable condition]
    {program other : SocketM α} (hpos : Receives program) (hneg : Receives other) :
    Receives (if condition then program else other) := by
  split_ifs
  · exact hpos
  · exact hneg

theorem receives_recvExact (len : ℕ) : Receives (recvExact len) := by
  have hloop : ∀ (rounds left : ℕ) (got : Bytes) (socket : StreamSocket) (flag : Bool),
      recvLoop rounds left got { socket with writable := flag } =
        ((recvLoop rounds left got socket).1,
          { (recvLoop rounds left got socket).2 with writable := flag }) := by
    intro rounds
    induction rounds with
    | zero => intro left got socket flag; cases left <;> rfl
    | succ rounds ih =>
      intro left got socket flag
      cases left with
      | zero => rfl
      | succ left =>
        simp only [recvLoop, StreamSocket.recv]
        cases socket.incoming.take (pieceSize socket.arrivals (left + 1)) with
        | nil => rfl
        | cons byte piece =>
          exact ih (left + 1 - (byte :: piece).length) (got ++ byte :: piece)
            { socket with
              incoming := socket.incoming.drop (pieceSize socket.arrivals (left + 1))
              arrivals := socket.arrivals.tail } flag
  exact hloop len len []

end LibSshpp.Posix
