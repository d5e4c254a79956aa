import LibSshpp.Forwarding.HalfClose
import LibSshpp.Forwarding.SocksProxy

/-!
The calls with which the proxy serves one connection, from the version byte to the closing of the
client's descriptor, and the ways it can go. The descriptor is closed where the function gives up,
or by the pump it is handed to. Nothing catches what a callback throws, and then the descriptor
stays open.
-/

set_option autoImplicit false
set_option relaxedAutoImplicit false

namespace LibSshpp.Forwarding

open Posix Client Program

/-- Where an exception can come from: the two callbacks, and the allocation of the pump's
buffer. -/
inductive ThrowPoint
  | allow | onError | pumpBuffer
  deriving DecidableEq, Repr

/-- How `serve_one_connection` ends, if it does: while the loop of the pump goes on it has not
ended. -/
inductive ServeOutcome
  | returned | threw | pumping
  deriving DecidableEq, Repr

/-- What `serve_one_connection` does besides reading the request. The answer of an `allow` that
throws is `none`; `openNative` is a call of libssh with its result, and `send` one of the socket
with the number of bytes taken. -/
inductive ServeCall
  | allow (target : ForwardTarget) (answer : Option Bool)
  | openDirect (target : ForwardTarget)
  | openNative (call : NativeOpen) (rc : ℤ)
  | reportError (info : ErrorInfo)
  | send (data : Bytes) (taken : ℕ)
  | countRejected
  | countConnection
  | close
  | pump (call : PumpCall)
  deriving DecidableEq, Repr

/-- A connection with the calls made for it. -/
structure Serving where
  connection : Connection
  calls : List ServeCall := []

/-- What is decided outside of the function: libssh's answers to opening the channel, what
throws, before which `send` of the reply the client's connection breaks, if it does, and what
happens around the pump. -/
structure Surroundings where
  answers : OpenAnswers
  throws : ThrowPoint → Bool := fun _ ↦ false
  breaksBefore : Option ℕ := none
  rounds : List Round := []

/-- The answer of `reply_socks5`. -/
def socks5Reply (status : UInt8) : Bytes := [socksVersion5, status, 0x00, 0x01, 0, 0, 0, 0, 0, 0]

/-- The answer of `reply_socks4`. -/
def socks4Reply (granted : Bool) : Bytes := [0x00, if granted then 0x5a else 0x5b, 0, 0, 0, 0, 0, 0]

def replyText (isSocks4 granted : Bool) (status : UInt8) : Bytes :=
  if isSocks4 then socks4Reply granted else socks5Reply status

/-! ### Sends -/

/-- The `send` calls for a text: each is given what is left of it, until all is taken or a call
takes nothing. -/
inductive SentInPieces : Bytes → List (Bytes × ℕ) → Prop
  | whole : SentInPieces [] []
  | broken {data : Bytes} (hleft : data ≠ []) : SentInPieces data [(data, 0)]
  | piece {data : Bytes} {taken : ℕ} {sends : List (Bytes × ℕ)} (hpos : 0 < taken)
      (hle : taken ≤ data.length) (hrest : SentInPieces (data.drop taken) sends) :
      SentInPieces data ((data, taken) :: sends)

/-- The bytes that were taken. -/
def takenBytes (sends : List (Bytes × ℕ)) : Bytes := sends.flatMap fun send ↦ send.1.take send.2

def sendCall (send : Bytes × ℕ) : ServeCall := .send send.1 send.2

/-- What goes out is the beginning of the text, and all of it unless a call takes nothing. -/
theorem SentInPieces.taken {data : Bytes} {sends : List (Bytes × ℕ)} (h : SentInPieces data sends) :
    takenBytes sends <+: data ∧ ((∀ send ∈ sends, send.2 ≠ 0) → takenBytes sends = data) := by
  induction h with
  | whole => exact ⟨List.prefix_rfl, fun _ ↦ rfl⟩
  | broken hleft =>
    refine ⟨List.nil_prefix, fun hall ↦ ?_⟩
    exact absurd rfl (hall _ List.mem_cons_self)
  | @piece data taken sends hpos hle hrest ih =>
    have hsplit : data.take taken ++ data.drop taken = data := List.take_append_drop taken data
    have htaken : takenBytes ((data, taken) :: sends) = data.take taken ++ takenBytes sends := rfl
    rw [htaken]
    constructor
    · obtain ⟨rest, hrest⟩ := ih.1
      exact ⟨rest, by rw [List.append_assoc, hrest, hsplit]⟩
    · intro hall
      rw [ih.2 fun send hsend ↦ hall send (List.mem_cons_of_mem _ hsend), hsplit]

/-! ### The function -/

namespace Serving

/-- A reader at work on the client's socket. -/
def reading {α : Type} (reader : SocketM α) : StateM Serving (Option α) := fun serving ↦
  ((reader serving.connection.socket).1, { serving with
    connection := { serving.connection with socket := (reader serving.connection.socket).2 } })

def close : StateM Serving Unit := fun serving ↦
  ((), { serving with calls := serving.calls ++ [.close] })

/-- The answer of `allow` where it is set, or `none` when it throws. -/
def allowed (options : SocksOptions) (throws : Bool) (target : ForwardTarget) :
    StateM Serving (Option Bool) := fun serving ↦
  match options.allow with
  | none => (some true, serving)
  | some allow =>
    if throws then (none, { serving with calls := serving.calls ++ [.allow target none] })
    else (some (allow target), {
      connection := { serving.connection with
        asked := serving.connection.asked ++ [(target, allow target)] }
      calls := serving.calls ++ [.allow target (some (allow target))] })

def countRejected : StateM Serving Unit := fun serving ↦
  let stats := serving.connection.stats
  ((), {
    connection := { serving.connection with
      stats := { stats with rejected := stats.rejected + 1 } }
    calls := serving.calls ++ [.countRejected] })

def countConnection : StateM Serving Unit := fun serving ↦
  let stats := serving.connection.stats
  ((), {
    connection := { serving.connection with
      stats := { stats with connections := stats.connections + 1 } }
    calls := serving.calls ++ [.countConnection] })

/-- One `send`, before which the connection may break. -/
def send (breaks : Bool) (data : Bytes) : StateM Serving ℕ := fun serving ↦
  let socket := serving.connection.socket
  let (taken, socket) := { socket with writable := socket.writable && !breaks }.send data
  (taken, {
    connection := { serving.connection with socket }
    calls := serving.calls ++ [.send data taken] })

/-- The loop of `send_exact` for a reply. -/
def sendReply : ℕ → Option ℕ → Bytes → StateM Serving Unit
  | _, _, [] => pure ()
  | 0, _, _ :: _ => pure ()
  | rounds + 1, breaksBefore, byte :: data => do
    let taken ← send (breaksBefore = some 0) (byte :: data)
    if taken = 0 then pure ()
    else sendReply rounds (breaksBefore.map Nat.pred) ((byte :: data).drop taken)

/-- `reply_socks4` or `reply_socks5`, by the version of the client. -/
def reply (breaksBefore : Option ℕ) (isSocks4 granted : Bool) (status : UInt8) :
    StateM Serving Unit :=
  sendReply (replyText isSocks4 granted status).length breaksBefore
    (replyText isSocks4 granted status)

/-- `open_direct`. -/
def openChannel (answers : OpenAnswers) (target : ForwardTarget) :
    StateM Serving (Result Unit) := fun serving ↦
  let (made, result) := openDirect answers target defaultOrigin
  (result, {
    connection := { serving.connection with opens := serving.connection.opens ++ made }
    calls := serving.calls ++ .openDirect target ::
      made.map fun call ↦ .openNative call answers.rc })

def reportError (info : ErrorInfo) : StateM Serving Unit := fun serving ↦
  ((), {
    connection := { serving.connection with errors := serving.connection.errors ++ [info] }
    calls := serving.calls ++ [.reportError info] })

/-- The pump, which owns the descriptor from here on. -/
def runPump (bufferSize : ℕ) (rounds : List Round) : StateM Serving ServeOutcome := fun serving ↦
  let pumped := Forwarding.pump bufferSize serving.connection.stats rounds
  (if pumped.done then .returned else .pumping, {
    connection := { serving.connection with stats := pumped.stats, pumped := some pumped }
    calls := serving.calls ++
      (pumpCalls bufferSize serving.connection.stats rounds).map .pump })

/-- What follows a request that `allow` approved. -/
def serveApproved (options : SocksOptions) (surroundings : Surroundings) (isSocks4 : Bool)
    (target : ForwardTarget) : StateM Serving ServeOutcome := do
  match ← openChannel surroundings.answers target with
  | .error info =>
    reportError info
    if surroundings.throws .onError then return .threw
    else
      reply surroundings.breaksBefore isSocks4 false 0x01
      close
      return .returned
  | .ok () =>
    reply surroundings.breaksBefore isSocks4 true 0x00
    countConnection
    if surroundings.throws .pumpBuffer then return .threw
    else runPump options.bufferSize surroundings.rounds

/-- The second half of `serve_one_connection`, for a request that was read. -/
def serveTarget (options : SocksOptions) (surroundings : Surroundings) (isSocks4 : Bool)
    (target : ForwardTarget) : StateM Serving ServeOutcome := do
  match ← allowed options (surroundings.throws .allow) target with
  | none => return .threw
  | some false =>
    countRejected
    reply surroundings.breaksBefore isSocks4 false 0x02
    close
    return .returned
  | some true => serveApproved options surroundings isSocks4 target

/-- `serve_one_connection`. -/
def serve (options : SocksOptions) (surroundings : Surroundings) :
    StateM Serving ServeOutcome := do
  match ← reading (recvExact 1) with
  | none =>
    close
    return .returned
  | some firstByte =>
    let isSocks4 : Bool := byteAt firstByte 0 = socksVersion4
    if isSocks4 = true ∧ options.allowSocks4 = false then
      close
      return .returned
    else if byteAt firstByte 0 ≠ socksVersion4 ∧ byteAt firstByte 0 ≠ socksVersion5 then
      close
      return .returned
    else
      match ← reading (if isSocks4 then readSocks4Request else readSocks5Request) with
      | none =>
        close
        return .returned
      | some target => serveTarget options surroundings isSocks4 target

/-! ### The two halves -/

/-- The service after a reader has left the socket so. -/
def receivedBy (serving : Serving) (socket : StreamSocket) : Serving :=
  { serving with connection := { serving.connection with socket } }

@[simp] theorem receivedBy_socket (serving : Serving) (socket : StreamSocket) :
    (serving.receivedBy socket).connection.socket = socket := rfl

theorem reading_bind {α : Type} (reader : SocketM α)
    (next : Option α → StateM Serving ServeOutcome) (serving : Serving) :
    (reading reader >>= next) serving = next (reader serving.connection.socket).1
      (serving.receivedBy (reader serving.connection.socket).2) := rfl

theorem serve_eq (options : SocksOptions) (surroundings : Surroundings) (serving : Serving) :
    serve options surroundings serving =
      match readRequest options serving.connection.socket with
      | (none, socket) => (.returned, (close (serving.receivedBy socket)).2)
      | (some (isSocks4, target), socket) =>
        serveTarget options surroundings isSocks4 target (serving.receivedBy socket) := by
  rw [serve, reading_bind, readRequest, socket_bind]
  cases hfirst : (recvExact 1 serving.connection.socket).1 with
  | none => rfl
  | some firstByte =>
    simp only [decide_eq_true_iff]
    by_cases hdisabled : byteAt firstByte 0 = socksVersion4 ∧ options.allowSocks4 = false
    · simp only [if_pos hdisabled]
      rfl
    · simp only [if_neg hdisabled]
      by_cases hother : byteAt firstByte 0 ≠ socksVersion4 ∧ byteAt firstByte 0 ≠ socksVersion5
      · simp only [if_pos hother]
        rfl
      · simp only [if_neg hother]
        by_cases hfour : byteAt firstByte 0 = socksVersion4
        · simp only [hfour, decide_true, if_true]
          rw [reading_bind, socket_bind, receivedBy_socket]
          cases (readSocks4Request (recvExact 1 serving.connection.socket).2).1 <;> rfl
        · simp only [hfour, decide_false, if_false]
          rw [reading_bind, socket_bind, receivedBy_socket]
          cases (readSocks5Request (recvExact 1 serving.connection.socket).2).1 <;> rfl

/-! ### The reply -/

/-- What one `send` does to the socket. -/
theorem send_eq (breaks : Bool) (data : Bytes) (serving : Serving) :
    ∃ taken socket, send breaks data serving = (taken, {
        connection := { serving.connection with socket }
        calls := serving.calls ++ [.send data taken] }) ∧
      taken ≤ data.length ∧
        socket.outgoing = serving.connection.socket.outgoing ++ data.take taken := by
  unfold send StreamSocket.send
  dsimp only
  split_ifs with hwritable
  · exact ⟨_, _, rfl, min_le_left _ _, rfl⟩
  · exact ⟨0, _, rfl, Nat.zero_le _, (List.append_nil _).symm⟩

theorem sendReply_nil (rounds : ℕ) (breaksBefore : Option ℕ) (serving : Serving) :
    ∃ sends socket, (sendReply rounds breaksBefore [] serving).2 = {
        connection := { serving.connection with socket }
        calls := serving.calls ++ sends.map sendCall } ∧
      SentInPieces [] sends ∧
        socket.outgoing = serving.connection.socket.outgoing ++ takenBytes sends := by
  refine ⟨[], serving.connection.socket, ?_, .whole, (List.append_nil _).symm⟩
  rw [List.map_nil, List.append_nil]
  cases rounds <;> rfl

/-- The sends of a reply are logged as they are made. -/
theorem sendReply_spec (rounds : ℕ) :
    ∀ (breaksBefore : Option ℕ) (data : Bytes) (serving : Serving), data.length ≤ rounds →
      ∃ sends socket, (sendReply rounds breaksBefore data serving).2 = {
          connection := { serving.connection with socket }
          calls := serving.calls ++ sends.map sendCall } ∧
        SentInPieces data sends ∧
          socket.outgoing = serving.connection.socket.outgoing ++ takenBytes sends := by
  induction rounds with
  | zero =>
    intro breaksBefore data serving hdata
    obtain rfl : data = [] := List.length_eq_zero_iff.mp (by omega)
    exact sendReply_nil 0 breaksBefore serving
  | succ rounds ih =>
    intro breaksBefore data serving hdata
    cases data with
    | nil => exact sendReply_nil (rounds + 1) breaksBefore serving
    | cons byte data =>
      obtain ⟨taken, socket, hsend, hle, hout⟩ :=
        send_eq (breaksBefore = some 0) (byte :: data) serving
      rw [sendReply, bind_of_eq hsend]
      by_cases hnothing : taken = 0
      · refine ⟨[(byte :: data, 0)], socket, ?_, .broken (List.cons_ne_nil _ _), ?_⟩
        · rw [if_pos hnothing, hnothing]
          rfl
        · rw [hout, hnothing]
          rfl
      · have hshorter : ((byte :: data).drop taken).length ≤ rounds := by
          rw [List.length_drop]
          omega
        obtain ⟨sends, later, hrun, hpieces, hlater⟩ :=
          ih (breaksBefore.map Nat.pred) _ { serving with
            connection := { serving.connection with socket }
            calls := serving.calls ++ [.send (byte :: data) taken] } hshorter
        refine ⟨(byte :: data, taken) :: sends, later, ?_,
          .piece (Nat.pos_of_ne_zero hnothing) hle hpieces, ?_⟩
        · rw [if_neg hnothing, hrun, List.append_assoc]
          rfl
        · rw [hlater, hout, List.append_assoc]
          rfl

/-- As long as the connection does not break, the reply is that of `send_exact`. -/
theorem sendReply_none (rounds : ℕ) : ∀ (data : Bytes) (serving : Serving),
    (sendReply rounds none data serving).2.connection = { serving.connection with
      socket := (sendLoop rounds data serving.connection.socket).2 } := by
  induction rounds with
  | zero =>
    intro data serving
    cases data <;> rfl
  | succ rounds ih =>
    intro data serving
    cases data with
    | nil => rfl
    | cons byte data =>
      have hsocket : { serving.connection.socket with
          writable := serving.connection.socket.writable && !decide (none = some 0) } =
            serving.connection.socket := by
        simp
      rcases hcall : serving.connection.socket.send (byte :: data) with ⟨taken, socket⟩
      have hsend : send (none = some 0) (byte :: data) serving = (taken, {
          connection := { serving.connection with socket }
          calls := serving.calls ++ [.send (byte :: data) taken] }) := by
        unfold send
        dsimp only
        rw [hsocket, hcall]
      rw [sendReply, bind_of_eq hsend, sendLoop, hcall]
      cases taken with
      | zero => rfl
      | succ taken =>
        rw [if_neg (Nat.succ_ne_zero taken)]
        exact ih _ _

/-- The reply is that of `reply_socks4` or `reply_socks5`. -/
theorem reply_none (isSocks4 granted : Bool) (status : UInt8) (serving : Serving) :
    ∃ calls, reply none isSocks4 granted status serving = ((), {
      connection := { serving.connection with
        socket := if isSocks4 then replySocks4 granted serving.connection.socket
          else replySocks5 status serving.connection.socket }
      calls }) := by
  have hsent := sendReply_none (replyText isSocks4 granted status).length
    (replyText isSocks4 granted status) serving
  refine ⟨(reply none isSocks4 granted status serving).2.calls, Prod.ext rfl ?_⟩
  change (reply none isSocks4 granted status serving).2.connection = _ at hsent
  have hsame : { serving.connection with
      socket := if isSocks4 then replySocks4 granted serving.connection.socket
        else replySocks5 status serving.connection.socket } =
          (reply none isSocks4 granted status serving).2.connection := by
    rw [hsent]
    cases isSocks4 <;> rfl
  rw [hsame]

theorem reply_spec (breaksBefore : Option ℕ) (isSocks4 granted : Bool) (status : UInt8)
    (serving : Serving) :
    ∃ sends socket, reply breaksBefore isSocks4 granted status serving = ((), {
        connection := { serving.connection with socket }
        calls := serving.calls ++ sends.map sendCall }) ∧
      SentInPieces (replyText isSocks4 granted status) sends ∧
        socket.outgoing = serving.connection.socket.outgoing ++ takenBytes sends := by
  obtain ⟨sends, socket, hrun, hpieces, hout⟩ := sendReply_spec
    (replyText isSocks4 granted status).length breaksBefore _ serving le_rfl
  exact ⟨sends, socket, Prod.ext rfl hrun, hpieces, hout⟩

/-! ### The ways through the function -/

/-- The questions put to `allow` for a target that is approved. -/
def askedOf (options : SocksOptions) (target : ForwardTarget) : List ServeCall :=
  match options.allow with
  | none => []
  | some _ => [.allow target (some true)]

/-- `allow` is not set, or approves of the target. -/
def Approves (options : SocksOptions) (target : ForwardTarget) : Prop :=
  ∀ allow, options.allow = some allow → allow target = true

/-- The attempt to open a channel. -/
def openCalls (answers : OpenAnswers) (target : ForwardTarget) : List ServeCall :=
  .openDirect target :: (openDirect answers target defaultOrigin).1.map
    fun call ↦ .openNative call answers.rc

/-- What an approved request can come to: the end, the calls behind the attempt, the counters and
the pump. -/
inductive ApprovedPath (options : SocksOptions) (surroundings : Surroundings) (isSocks4 : Bool)
    (target : ForwardTarget) (stats : ForwardStats) (pumped : Option PumpState) :
    ServeOutcome → List ServeCall → ForwardStats → Option PumpState → Prop
  | reportThrew {info : ErrorInfo}
      (hopen : (openDirect surroundings.answers target defaultOrigin).2 = .error info)
      (hthrows : surroundings.throws .onError = true) :
      ApprovedPath options surroundings isSocks4 target stats pumped .threw
        [.reportError info] stats pumped
  | unopened {info : ErrorInfo} {sends : List (Bytes × ℕ)}
      (hopen : (openDirect surroundings.answers target defaultOrigin).2 = .error info)
      (hsends : SentInPieces (replyText isSocks4 false 0x01) sends) :
      ApprovedPath options surroundings isSocks4 target stats pumped .returned
        ([.reportError info] ++ sends.map sendCall ++ [.close]) stats pumped
  | bufferThrew {sends : List (Bytes × ℕ)}
      (hopen : (openDirect surroundings.answers target defaultOrigin).2 = .ok ())
      (hsends : SentInPieces (replyText isSocks4 true 0x00) sends)
      (hthrows : surroundings.throws .pumpBuffer = true) :
      ApprovedPath options surroundings isSocks4 target stats pumped .threw
        (sends.map sendCall ++ [.countConnection])
        { stats with connections := stats.connections + 1 } pumped
  | opened {sends : List (Bytes × ℕ)} {counted : ForwardStats} {state : PumpState}
      (hopen : (openDirect surroundings.answers target defaultOrigin).2 = .ok ())
      (hsends : SentInPieces (replyText isSocks4 true 0x00) sends)
      (hcounted : counted = { stats with connections := stats.connections + 1 })
      (hpump : state = Forwarding.pump options.bufferSize counted surroundings.rounds) :
      ApprovedPath options surroundings isSocks4 target stats pumped
        (if state.done then .returned else .pumping)
        (sends.map sendCall ++ [.countConnection] ++
          (pumpCalls options.bufferSize counted surroundings.rounds).map .pump)
        state.stats (some state)

/-- What a connection can come to. -/
inductive ServePath (options : SocksOptions) (surroundings : Surroundings)
    (connection : Connection) :
    ServeOutcome → List ServeCall → ForwardStats → Option PumpState → Prop
  | unread (hread : (readRequest options connection.socket).1 = none) :
      ServePath options surroundings connection .returned [.close] connection.stats
        connection.pumped
  | askingThrew {isSocks4 : Bool} {target : ForwardTarget} {allow : ForwardTarget → Bool}
      (hread : (readRequest options connection.socket).1 = some (isSocks4, target))
      (hallow : options.allow = some allow) (hthrows : surroundings.throws .allow = true) :
      ServePath options surroundings connection .threw [.allow target none] connection.stats
        connection.pumped
  | refused {isSocks4 : Bool} {target : ForwardTarget} {allow : ForwardTarget → Bool}
      {sends : List (Bytes × ℕ)}
      (hread : (readRequest options connection.socket).1 = some (isSocks4, target))
      (hallow : options.allow = some allow) (hanswer : allow target = false)
      (hsends : SentInPieces (replyText isSocks4 false 0x02) sends) :
      ServePath options surroundings connection .returned
        ([.allow target (some false), .countRejected] ++ sends.map sendCall ++ [.close])
        { connection.stats with rejected := connection.stats.rejected + 1 } connection.pumped
  | approved {isSocks4 : Bool} {target : ForwardTarget} {outcome : ServeOutcome}
      {rest : List ServeCall} {stats : ForwardStats} {pumped : Option PumpState}
      (hread : (readRequest options connection.socket).1 = some (isSocks4, target))
      (happroves : Approves options target)
      (hpath : ApprovedPath options surroundings isSocks4 target connection.stats
        connection.pumped outcome rest stats pumped) :
      ServePath options surroundings connection outcome
        (askedOf options target ++ (openCalls surroundings.answers target ++ rest)) stats pumped

theorem openChannel_eq {answers : OpenAnswers} {target : ForwardTarget} {result : Result Unit}
    (serving : Serving) (hopen : (openDirect answers target defaultOrigin).2 = result) :
    openChannel answers target serving = (result, {
      connection := { serving.connection with
        opens := serving.connection.opens ++ (openDirect answers target defaultOrigin).1 }
      calls := serving.calls ++ openCalls answers target }) := by
  rw [← hopen]
  rfl

theorem allowed_unset {options : SocksOptions} (hallow : options.allow = none) (throws : Bool)
    (target : ForwardTarget) (serving : Serving) :
    allowed options throws target serving = (some true, serving) := by
  rw [allowed, hallow]

theorem allowed_threw {options : SocksOptions} {allow : ForwardTarget → Bool}
    (hallow : options.allow = some allow) (target : ForwardTarget) (serving : Serving) :
    allowed options true target serving =
      (none, { serving with calls := serving.calls ++ [.allow target none] }) := by
  rw [allowed, hallow]
  rfl

theorem allowed_answered {options : SocksOptions} {allow : ForwardTarget → Bool}
    (hallow : options.allow = some allow) (target : ForwardTarget) (serving : Serving) :
    allowed options false target serving = (some (allow target), {
      connection := { serving.connection with
        asked := serving.connection.asked ++ [(target, allow target)] }
      calls := serving.calls ++ [.allow target (some (allow target))] }) := by
  rw [allowed, hallow]
  rfl

section Target

variable {options : SocksOptions} {surroundings : Surroundings} {isSocks4 : Bool}
  {target : ForwardTarget}

theorem serveApproved_path (serving : Serving) :
    ∃ rest, (serveApproved options surroundings isSocks4 target serving).2.calls =
        serving.calls ++ (openCalls surroundings.answers target ++ rest) ∧
      ApprovedPath options surroundings isSocks4 target serving.connection.stats
        serving.connection.pumped
        (serveApproved options surroundings isSocks4 target serving).1 rest
        (serveApproved options surroundings isSocks4 target serving).2.connection.stats
        (serveApproved options surroundings isSocks4 target serving).2.connection.pumped := by
  rw [serveApproved]
  rcases hopen : (openDirect surroundings.answers target defaultOrigin).2 with info | ⟨⟩
  · rw [bind_of_eq (openChannel_eq serving hopen)]
    dsimp only
    rw [bind_of_eq (rfl : reportError info _ = ((), _))]
    by_cases hthrows : surroundings.throws .onError = true
    · rw [if_pos hthrows]
      exact ⟨_, List.append_assoc _ _ _, .reportThrew hopen hthrows⟩
    · rw [if_neg hthrows]
      obtain ⟨sends, socket, hreply, hsends, -⟩ :=
        reply_spec surroundings.breaksBefore isSocks4 false 0x01 _
      rw [bind_of_eq hreply]
      refine ⟨_, ?_, .unopened hopen hsends⟩
      change ((serving.calls ++ _ ++ [_]) ++ _) ++ [_] = _
      simp only [List.append_assoc]
  · rw [bind_of_eq (openChannel_eq serving hopen)]
    dsimp only
    obtain ⟨sends, socket, hreply, hsends, -⟩ :=
      reply_spec surroundings.breaksBefore isSocks4 true 0x00 _
    rw [bind_of_eq hreply, bind_of_eq (rfl : countConnection _ = ((), _))]
    by_cases hthrows : surroundings.throws .pumpBuffer = true
    · rw [if_pos hthrows]
      refine ⟨_, ?_, .bufferThrew hopen hsends hthrows⟩
      change (serving.calls ++ _ ++ _) ++ [_] = _
      simp only [List.append_assoc]
    · rw [if_neg hthrows]
      refine ⟨_, ?_, .opened hopen hsends rfl rfl⟩
      change ((serving.calls ++ _ ++ _) ++ [_]) ++ _ = _
      simp only [List.append_assoc]

end Target

/-- The function goes one of the ways. -/
theorem serve_path (options : SocksOptions) (surroundings : Surroundings)
    (connection : Connection) :
    ServePath options surroundings connection
      (serve options surroundings { connection }).1
      (serve options surroundings { connection }).2.calls
      (serve options surroundings { connection }).2.connection.stats
      (serve options surroundings { connection }).2.connection.pumped := by
  rw [serve_eq]
  rcases hread : readRequest options connection.socket with ⟨_ | ⟨isSocks4, target⟩, socket⟩
  · exact .unread (congrArg Prod.fst hread)
  replace hread := congrArg Prod.fst hread
  dsimp only
  rw [serveTarget]
  -- what comes after `allow`, on the state it leaves
  have hgoesOn : ∀ after : Serving, Approves options target →
      after.calls = askedOf options target → after.connection.stats = connection.stats →
        after.connection.pumped = connection.pumped →
          ServePath options surroundings connection
            (serveApproved options surroundings isSocks4 target after).1
            (serveApproved options surroundings isSocks4 target after).2.calls
            (serveApproved options surroundings isSocks4 target after).2.connection.stats
            (serveApproved options surroundings isSocks4 target after).2.connection.pumped := by
    intro after happroves hcalls hstats hpumped
    obtain ⟨rest, hrest, hpath⟩ := serveApproved_path after
    rw [hrest, hcalls]
    rw [hstats, hpumped] at hpath
    exact .approved hread happroves hpath
  cases hallow : options.allow with
  | none =>
    rw [bind_of_eq (allowed_unset hallow _ _ _)]
    refine hgoesOn _ (fun _ h ↦ nomatch hallow.symm.trans h) ?_ rfl rfl
    rw [askedOf, hallow]
    rfl
  | some allow =>
    cases hthrows : surroundings.throws .allow with
    | true =>
      rw [bind_of_eq (allowed_threw hallow _ _)]
      exact .askingThrew hread hallow hthrows
    | false =>
      rw [bind_of_eq (allowed_answered hallow _ _)]
      cases hanswer : allow target with
      | false =>
        dsimp only
        rw [bind_of_eq (rfl : countRejected _ = ((), _))]
        obtain ⟨sends, _, hreply, hsends, -⟩ :=
          reply_spec surroundings.breaksBefore isSocks4 false 0x02 _
        rw [bind_of_eq hreply]
        exact .refused hread hallow hanswer hsends
      | true =>
        refine hgoesOn _ (fun other h ↦ ?_) ?_ rfl rfl
        · rw [← Option.some.inj (hallow.symm.trans h)]
          exact hanswer
        · rw [askedOf, hallow]
          rfl

/-- An approved request, as long as nothing throws and the connection does not break. -/
theorem serveApproved_connection (options : SocksOptions) (answers : OpenAnswers)
    (rounds : List Round) (isSocks4 : Bool) (target : ForwardTarget) (after : Serving) :
    (serveApproved options { answers, rounds } isSocks4 target after).2.connection =
      match openDirect answers target defaultOrigin with
      | (made, .error info) => { after.connection with
          opens := after.connection.opens ++ made
          errors := after.connection.errors ++ [info]
          socket := if isSocks4 then replySocks4 false after.connection.socket
            else replySocks5 0x01 after.connection.socket }
      | (made, .ok ()) =>
        let stats := { after.connection.stats with
          connections := after.connection.stats.connections + 1 }
        { after.connection with
          opens := after.connection.opens ++ made
          socket := if isSocks4 then replySocks4 true after.connection.socket
            else replySocks5 0x00 after.connection.socket
          stats := (Forwarding.pump options.bufferSize stats rounds).stats
          pumped := some (Forwarding.pump options.bufferSize stats rounds) } := by
  have hopened := openChannel_eq after (rfl : (openDirect answers target defaultOrigin).2 = _)
  rw [serveApproved, bind_of_eq hopened]
  rcases openDirect answers target defaultOrigin with ⟨made, info | ⟨⟩⟩
  · dsimp only
    obtain ⟨calls, hreply⟩ := reply_none isSocks4 false 0x01 _
    rw [bind_of_eq (rfl : reportError info _ = ((), _)), if_neg Bool.false_ne_true,
      bind_of_eq hreply]
    rfl
  · dsimp only
    obtain ⟨calls, hreply⟩ := reply_none isSocks4 true 0x00 _
    rw [bind_of_eq hreply]
    rfl

/-- As long as nothing throws and the connection does not break, the connection is served as
`serveOneConnection` says. -/
theorem serve_connection (options : SocksOptions) (answers : OpenAnswers) (rounds : List Round)
    (connection : Connection) :
    (serve options { answers, rounds } { connection }).2.connection =
      serveOneConnection options answers rounds connection := by
  rw [serve_eq, serveOneConnection]
  rcases readRequest options connection.socket with ⟨_ | ⟨isSocks4, target⟩, socket⟩
  · rfl
  dsimp only
  rw [serveTarget]
  cases hallow : options.allow with
  | none =>
    rw [bind_of_eq (allowed_unset hallow _ _ _)]
    dsimp only
    rw [serveApproved_connection]
    simp only [Option.map_none, reduceCtorEq, if_false, Option.toList_none, List.append_nil]
    rcases openDirect answers target defaultOrigin with ⟨made, info | ⟨⟩⟩ <;> rfl
  | some allow =>
    rw [bind_of_eq (allowed_answered hallow _ _)]
    cases hanswer : allow target with
    | false =>
      dsimp only
      obtain ⟨calls, hreply⟩ := reply_none isSocks4 false 0x02 _
      rw [bind_of_eq (rfl : countRejected _ = ((), _)), bind_of_eq hreply]
      simp only [Option.map_some, hanswer, if_true]
      rfl
    | true =>
      dsimp only
      rw [serveApproved_connection]
      simp only [Option.map_some, hanswer, Option.some.injEq, Bool.true_eq_false, if_false]
      rcases openDirect answers target defaultOrigin with ⟨made, info | ⟨⟩⟩ <;> rfl

end Serving

end LibSshpp.Forwarding
