import LibSshpp.Forwarding.HalfClose
import LibSshpp.Forwarding.SocksProxy
import LibSshpp.Program.Holdings

/-!
The loops that hand connections to the pump: `LocalForward::accept_loop`,
`RemoteForward::run_loop` and the loop of `X11Forwarder::try_run_until_stopped`. Each of their
turns is given descriptors, channels, address lists and texts and gives them back on every way
through it, and the counters and reported errors of the two forwards account for every connection.
-/

set_option autoImplicit false
set_option relaxedAutoImplicit false

namespace LibSshpp.Forwarding

open Posix Client Program Holdings

/-- What the loops are given and have to give back. -/
inductive Kind
  | descriptor
  | channel
  | addresses
  | text
  deriving DecidableEq, Repr

/-! ### Connecting to the local side -/

/-- What becomes of one address of `getaddrinfo`. -/
inductive Peer
  | noSocket
  | socket (connected : Bool)
  deriving DecidableEq, Repr

/-- What the system answers to one `connect_target`. -/
structure ConnectAnswers where
  gaiText : String := ""
  addresses : List Peer := []
  errnoText : String := ""

/-- The loop over the addresses, with the descriptor that is connected. -/
def connectAddresses : List Peer → StateM (Holdings Kind) (Option ℕ)
  | [] => pure none
  | .noSocket :: rest => connectAddresses rest
  | .socket connected :: rest => do
    let fd ← acquire Kind.descriptor
    use (.descriptor, fd)
    if connected then pure (some fd)
    else
      release (.descriptor, fd)
      connectAddresses rest

/-- `connect_tcp`. -/
def connectTcp (answers : ConnectAnswers) : StateM (Holdings Kind) (Result ℕ) := do
  if answers.addresses = [] then
    pure (.error {
      code := .ssh .forwardingFailed, message := answers.gaiText, operation := "getaddrinfo" })
  else
    let results ← acquire Kind.addresses
    let fd ← connectAddresses answers.addresses
    release (.addresses, results)
    match fd with
    | some fd => pure (.ok fd)
    | none =>
      pure (.error {
        code := .ssh .forwardingFailed, message := answers.errnoText, operation := "connect" })

/-- The size of `sockaddr_un::sun_path`. -/
def sunPathSize : ℕ := 108

/-- `connect_unix`, where the first of the addresses says what becomes of its one socket. -/
def connectUnix (target : UnixEndpoint) (answers : ConnectAnswers) :
    StateM (Holdings Kind) (Result ℕ) := do
  if sunPathSize ≤ target.path.length then
    pure (.error {
      code := .ssh .invalidArgument, message := "path too long", operation := "connect_unix" })
  else
    match answers.addresses with
    | .socket connected :: _ =>
      let fd ← acquire Kind.descriptor
      use (.descriptor, fd)
      if connected then pure (.ok fd)
      else
        release (.descriptor, fd)
        pure (.error {
          code := .ssh .forwardingFailed, message := answers.errnoText, operation := "connect" })
    | _ =>
      pure (.error {
        code := .ssh .forwardingFailed, message := answers.errnoText, operation := "socket" })

def connectTarget (target : ForwardTarget) (answers : ConnectAnswers) :
    StateM (Holdings Kind) (Result ℕ) :=
  match target with
  | .tcp _ => connectTcp answers
  | .unix endpoint => connectUnix endpoint answers

/-- The native channel of `open_direct`, which is freed again if it cannot be opened. -/
def openChannel (answers : OpenAnswers) (target : ForwardTarget) :
    StateM (Holdings Kind) (Result ℕ) := do
  match (openDirect answers target defaultOrigin).2, answers.created with
  | .error info, false => pure (.error info)
  | .error info, true =>
    let channel ← acquire Kind.channel
    use (.channel, channel)
    release (.channel, channel)
    pure (.error info)
  | .ok (), _ =>
    let channel ← acquire Kind.channel
    use (.channel, channel)
    pure (.ok channel)

/-- What a call of the pump does with its channel or its descriptor. -/
def PumpCall.perform (channel descriptor : ℕ) : PumpCall → StateM (Holdings Kind) Unit
  | .closeSocket => release (.descriptor, descriptor)
  | .send _ _ | .shutdownWrite | .recv _ => use (.descriptor, descriptor)
  | .readChannel _ | .isEof _ | .writeAll _ | .sendEof | .closeChannel => use (.channel, channel)

def performAll (channel descriptor : ℕ) : List PumpCall → StateM (Holdings Kind) Unit :=
  runAll (PumpCall.perform channel descriptor)

/-! ### The loops -/

/-- What the turns of a forward did: its counters, the connections that were taken, the calls of
`try_accept` that failed, the questions put to the filter, the targets a connection was sought to,
the errors reported and the pumps that were run. An `accept` of a `LocalForward` that fails is not
in the books: its loop just goes on. -/
structure Books where
  stats : ForwardStats := {}
  accepted : ℕ := 0
  unaccepted : ℕ := 0
  asked : List (TcpEndpoint × Bool) := []
  attempts : List ForwardTarget := []
  errors : List ErrorInfo := []
  pumped : List PumpState := []

namespace Books

def accept (books : Books) : Books := { books with accepted := books.accepted + 1 }

def reportError (info : ErrorInfo) (books : Books) : Books :=
  { books with errors := books.errors ++ [info] }

/-- The question put to `accept_filter` where it is set. -/
def ask (filter : Option (TcpEndpoint → Bool)) (peer : TcpEndpoint) (books : Books) : Books :=
  match filter with
  | none => books
  | some filter => { books with asked := books.asked ++ [(peer, filter peer)] }

def seek (target : ForwardTarget) (books : Books) : Books :=
  { books with attempts := books.attempts ++ [target] }

def countRejected (books : Books) : Books :=
  { books with stats := { books.stats with rejected := books.stats.rejected + 1 } }

def countConnection (books : Books) : Books :=
  { books with stats := { books.stats with connections := books.stats.connections + 1 } }

/-- `pump`, in the rounds that it has had. -/
def pump (bufferSize : ℕ) (rounds : List Round) (books : Books) : Books :=
  let pumped := Forwarding.pump bufferSize books.stats rounds
  { books with stats := pumped.stats, pumped := books.pumped ++ [pumped] }

end Books

/-- A forward at work: its books and what it holds. `pumping` is the channel and the descriptor of
a pump that has not returned. -/
structure Forward where
  books : Books := {}
  holdings : Holdings Kind := {}
  pumping : Option (ℕ × ℕ) := none
  left : Bool := false

namespace Forward

def onHoldings {α : Type} (program : StateM (Holdings Kind) α) : StateM Forward α := fun forward ↦
  ((program forward.holdings).1, { forward with holdings := (program forward.holdings).2 })

def onBooks (entry : Books → Books) : StateM Forward Unit := fun forward ↦
  ((), { forward with books := entry forward.books })

/-- The answer of `accept_filter`, if it is set. -/
def approved (filter : Option (TcpEndpoint → Bool)) (peer : TcpEndpoint) : StateM Forward Bool := do
  onBooks (.ask filter peer)
  pure (filter.all fun filter ↦ filter peer)

/-- `pump`, which has the channel and the descriptor for itself. -/
def runPump (bufferSize : ℕ) (rounds : List Round) (channel descriptor : ℕ) :
    StateM Forward Unit := fun forward ↦
  let calls := pumpCalls bufferSize forward.books.stats rounds
  ((), { forward with
    books := forward.books.pump bufferSize rounds
    holdings := (performAll channel descriptor calls forward.holdings).2
    pumping :=
      if (pump bufferSize forward.books.stats rounds).done then none
      else some (channel, descriptor) })

/-- The destructor of the channel, at the end of the scope that a running pump keeps open. -/
def freeChannel (channel : ℕ) : StateM Forward Unit := fun forward ↦
  if forward.pumping.isSome then ((), forward)
  else onHoldings (release (.channel, channel)) forward

/-- A turn of a loop, unless the loop was left, is still in the pump of the turn before, or is
left now. -/
def turn (stopRequested : Bool) (body : StateM Forward Unit) : StateM Forward Unit :=
  fun forward ↦
    if forward.left || forward.pumping.isSome then ((), forward)
    else if stopRequested then ((), { forward with left := true })
    else body forward

end Forward

open Forward

namespace LocalForward

/-- `LocalForward::Options`, as far as a connection reads them. -/
structure Options where
  target : ForwardTarget
  bufferSize : ℕ := 64 * 1024
  acceptFilter : Option (TcpEndpoint → Bool) := none

/-- What happens in one turn of the loop: the stop flag, the results of `poll` and `accept`, the
peer as `getpeername` and `inet_ntop` name an IPv4 one, libssh's answers to the opening of the
channel and the rounds of the pump. -/
structure Turn where
  stopRequested : Bool := false
  poll : ℤ := 1
  accepted : Bool := true
  peer : Option TcpEndpoint := none
  answers : OpenAnswers := { created := true, rc := sshOk }
  rounds : List Round := []

/-- `pump_one_connection`. -/
def pumpOneConnection (options : Options) (turn : Turn) (clientFd : ℕ) : StateM Forward Unit := do
  if (← approved options.acceptFilter (turn.peer.getD ⟨[], 0⟩)) = false then
    onHoldings (release (.descriptor, clientFd))
    onBooks .countRejected
  else
    onBooks (.seek options.target)
    match ← onHoldings (openChannel turn.answers options.target) with
    | .error info =>
      onBooks (.reportError info)
      onHoldings (release (.descriptor, clientFd))
    | .ok channel =>
      onBooks .countConnection
      runPump options.bufferSize turn.rounds channel clientFd
      freeChannel channel

/-- A turn of `accept_loop`. -/
def serveTurn (options : Options) (turn : Turn) : StateM Forward Unit :=
  Forward.turn turn.stopRequested
    (if turn.poll ≤ 0 ∨ turn.accepted = false then pure ()
    else do
      let clientFd ← onHoldings (acquire .descriptor)
      onBooks .accept
      pumpOneConnection options turn clientFd)

end LocalForward

namespace RemoteForward

/-- `RemoteForward::Options`, as far as a connection reads them. -/
structure Options where
  localTarget : ForwardTarget
  acceptFilter : Option (TcpEndpoint → Bool) := none

/-- What happens in one turn of the loop. `try_accept` fails, finds nobody or returns a channel
and its originator, whose host libssh may leave out. -/
structure Turn where
  stopRequested : Bool := false
  accepted : Result (Option (Option Bytes × UInt16)) := .ok none
  answers : ConnectAnswers := {}
  rounds : List Round := []

/-- `RemoteForwardListener::try_accept` once libssh has returned a channel. -/
def takeIncoming (host : Option Bytes) (port : UInt16) : StateM Forward (ℕ × TcpEndpoint) := do
  let channel ← onHoldings (acquire .channel)
  onBooks .accept
  match host with
  | none => pure (channel, ⟨[], port⟩)
  | some host =>
    let originator ← onHoldings (acquire .text)
    onHoldings (release (.text, originator))
    pure (channel, ⟨cString host, port⟩)

/-- `pump_one_connection`. -/
def pumpOneConnection (options : Options) (turn : Turn) (channel : ℕ) (originator : TcpEndpoint) :
    StateM Forward Unit := do
  if (← approved options.acceptFilter originator) = false then
    onBooks .countRejected
  else
    onBooks (.seek options.localTarget)
    match ← onHoldings (connectTarget options.localTarget turn.answers) with
    | .error info => onBooks (.reportError info)
    | .ok clientFd =>
      onBooks .countConnection
      runPump (64 * 1024) turn.rounds channel clientFd

/-- A turn of `run_loop`. -/
def serveTurn (options : Options) (turn : Turn) : StateM Forward Unit :=
  Forward.turn turn.stopRequested
    (match turn.accepted with
    | .error info => do
      onBooks fun books ↦ { books with unaccepted := books.unaccepted + 1 }
      onBooks (.reportError info)
    | .ok none => pure ()
    | .ok (some (host, port)) => do
      let (channel, originator) ← takeIncoming host port
      pumpOneConnection options turn channel originator
      freeChannel channel)

end RemoteForward

namespace X11Forwarder

/-- What happens in one turn of the loop of `try_run_until_stopped`. -/
structure Turn where
  stopRequested : Bool := false
  accepted : Bool := true
  answers : ConnectAnswers := {}
  rounds : List Round := []

/-- The connection of a turn: its descriptor and its pump. -/
def pumpConnection (singleConnection : Bool) (rounds : List Round) (channel fd : ℕ) :
    StateM Forward Unit := do
  -- the counters are those of a `BidirectionalPump` of its own
  onBooks fun books ↦ { books with stats := {} }
  runPump (64 * 1024) rounds channel fd
  freeChannel channel
  fun forward ↦ ((), { forward with left := singleConnection && !forward.pumping.isSome })

/-- A turn of the loop of `try_run_until_stopped`. -/
def serveTurn (singleConnection : Bool) (target : ForwardTarget) (turn : Turn) :
    StateM Forward Unit :=
  Forward.turn turn.stopRequested
    (if turn.accepted = false then pure ()
    else do
      let channel ← onHoldings (acquire .channel)
      match ← onHoldings (connectTarget target turn.answers) with
      | .error _ => freeChannel channel
      | .ok fd => pumpConnection singleConnection turn.rounds channel fd)

end X11Forwarder

/-! ### What is given back -/

/-- The things of one kind that a call may have left to its caller. -/
def given (kind : Kind) : Option ℕ → List (Kind × ℕ)
  | none => []
  | some number => [(kind, number)]

section Calls

variable (items : List (Kind × ℕ))

/-- Of all the sockets that were tried only the connected one is left. -/
theorem are_connectAddresses (peers : List Peer) :
    Triple (Are items) (connectAddresses peers) fun fd ↦ Are (given .descriptor fd ++ items) := by
  induction peers with
  | nil => exact Triple.pure fun _ h ↦ h
  | cons peer rest ih =>
    cases peer with
    | noSocket => exact ih
    | socket connected =>
      refine Triple.bind (are_acquire Kind.descriptor items) fun fd ↦ ?_
      refine Triple.bind (are_use List.mem_cons_self) fun _ ↦ ?_
      refine Triple.ite (fun _ ↦ Triple.pure fun _ h ↦ h) fun _ ↦ ?_
      exact Triple.bind (are_releaseLast _ items) fun _ ↦ ih

theorem are_connectTcp (answers : ConnectAnswers) :
    Triple (Are items) (connectTcp answers) fun result ↦
      Are (given .descriptor result.toOption ++ items) := by
  refine Triple.ite (fun _ ↦ Triple.pure fun _ h ↦ h) fun _ ↦ ?_
  refine Triple.bind (are_acquire Kind.addresses items) fun results ↦ ?_
  refine Triple.bind (are_connectAddresses _ answers.addresses) fun fd ↦ ?_
  cases fd with
  | none => exact Triple.bind (are_releaseLast _ items) fun _ ↦ Triple.pure fun _ h ↦ h
  | some fd =>
    exact Triple.bind (are_releaseBelow (by decide) fd results items) fun _ ↦
      Triple.pure fun _ h ↦ h

theorem are_connectUnix (target : UnixEndpoint) (answers : ConnectAnswers) :
    Triple (Are items) (connectUnix target answers) fun result ↦
      Are (given .descriptor result.toOption ++ items) := by
  refine Triple.ite (fun _ ↦ Triple.pure fun _ h ↦ h) fun _ ↦ ?_
  obtain _ | ⟨_ | connected, rest⟩ := answers.addresses
  · exact Triple.pure fun _ h ↦ h
  · exact Triple.pure fun _ h ↦ h
  · refine Triple.bind (are_acquire Kind.descriptor items) fun fd ↦ ?_
    refine Triple.bind (are_use List.mem_cons_self) fun _ ↦ ?_
    refine Triple.ite (fun _ ↦ Triple.pure fun _ h ↦ h) fun _ ↦ ?_
    exact Triple.bind (are_releaseLast _ items) fun _ ↦ Triple.pure fun _ h ↦ h

theorem are_connectTarget (target : ForwardTarget) (answers : ConnectAnswers) :
    Triple (Are items) (connectTarget target answers) fun result ↦
      Are (given .descriptor result.toOption ++ items) := by
  cases target with
  | tcp endpoint => exact are_connectTcp items answers
  | unix endpoint => exact are_connectUnix items endpoint answers

theorem are_openChannel (answers : OpenAnswers) (target : ForwardTarget) :
    Triple (Are items) (openChannel answers target) fun result ↦
      Are (given .channel result.toOption ++ items) := by
  unfold openChannel
  rcases (openDirect answers target defaultOrigin).2 with info | ⟨⟩
  · cases answers.created with
    | false => exact Triple.pure fun _ h ↦ h
    | true =>
      refine Triple.bind (are_acquire Kind.channel items) fun channel ↦ ?_
      refine Triple.bind (are_use List.mem_cons_self) fun _ ↦ ?_
      exact Triple.bind (are_releaseLast _ items) fun _ ↦ Triple.pure fun _ h ↦ h
  · refine Triple.bind (are_acquire Kind.channel items) fun channel ↦ ?_
    exact Triple.bind (are_use List.mem_cons_self) fun _ ↦ Triple.pure fun _ h ↦ h

variable {items} {channel descriptor : ℕ}

/-- Every call of a pump but the last uses what the pump was given. -/
theorem are_perform (hchannel : (.channel, channel) ∈ items)
    (hdescriptor : (.descriptor, descriptor) ∈ items) {call : PumpCall}
    (hcall : call ≠ .closeSocket) : Keeps (Are items) (call.perform channel descriptor) := by
  cases call with
  | closeSocket => exact absurd rfl hcall
  | send | shutdownWrite | recv => exact are_use hdescriptor
  | readChannel | isEof | writeAll | sendEof | closeChannel => exact are_use hchannel

theorem are_performAll (hchannel : (.channel, channel) ∈ items)
    (hdescriptor : (.descriptor, descriptor) ∈ items) {calls : List PumpCall}
    (hcalls : .closeSocket ∉ calls) : Keeps (Are items) (performAll channel descriptor calls) := by
  induction calls with
  | nil => exact Keeps.pure ()
  | cons call calls ih =>
    obtain ⟨hcall, hlater⟩ := not_or.mp fun h ↦ hcalls (List.mem_cons.mpr h)
    exact Keeps.bind (are_perform hchannel hdescriptor (Ne.symm hcall)) fun _ ↦ ih hlater

theorem performAll_append (calls more : List PumpCall) (holdings : Holdings Kind) :
    (performAll channel descriptor (calls ++ more) holdings).2 =
      (performAll channel descriptor more (performAll channel descriptor calls holdings).2).2 :=
  stateAfter_append _ calls more holdings

/-- A pump gives back the descriptor when it returns, and not before. -/
theorem are_pump (hchannel : (.channel, channel) ∈ items)
    (hdescriptor : (.descriptor, descriptor) ∈ items) (bufferSize : ℕ) (stats : ForwardStats)
    (rounds : List Round) {holdings : Holdings Kind} (h : holdings.Are items) :
    ((performAll channel descriptor (pumpCalls bufferSize stats rounds) holdings).2).Are
      (if (pump bufferSize stats rounds).done then items.erase (.descriptor, descriptor)
      else items) := by
  have hrecorded : Recorded (pump bufferSize stats rounds) _ := pump_recorded rounds
  cases hdone : (pump bufferSize stats rounds).done with
  | false =>
    rw [if_neg Bool.false_ne_true]
    exact are_performAll hchannel hdescriptor (hrecorded.running hdone).2 holdings h
  | true =>
    rw [if_pos rfl]
    obtain ⟨before, hcalls⟩ := hrecorded.closed hdone
    have honce : (pumpCalls bufferSize stats rounds).count .closeSocket = 1 := by
      rw [count_closeSocket, hdone, if_pos rfl]
    rw [hcalls, List.count_append] at honce
    have hbefore : .closeSocket ∉ before := fun hmem ↦
      absurd honce (by have := List.count_pos_iff.mpr hmem; simp; omega)
    rw [hcalls, performAll_append]
    have hused := are_performAll hchannel hdescriptor hbefore holdings h
    exact are_release hdescriptor _ (are_use hchannel _ hused)

end Calls

/-- A loop between two turns holds nothing, and in a turn whose pump has not returned the pump's
channel and its descriptor. Nothing was used or given back that was not held. -/
structure Tidy (forward : Forward) : Prop where
  strays : forward.holdings.strays = []
  between : forward.pumping = none → forward.holdings.held = []
  pumping : ∀ channel descriptor, forward.pumping = some (channel, descriptor) →
    forward.holdings.held.Perm [(.channel, channel), (.descriptor, descriptor)]

/-- The forward holds these things, and no pump runs. -/
def Owns (items : List (Kind × ℕ)) (forward : Forward) : Prop :=
  forward.holdings.Are items ∧ forward.pumping = none

/-- The channel of a turn is left to be freed, unless a pump runs on it. -/
def LeavesChannel (channel : ℕ) (forward : Forward) : Prop :=
  Owns [(.channel, channel)] forward ∨ ∃ descriptor,
    forward.pumping = some (channel, descriptor) ∧ ∃ items, forward.holdings.Are items ∧
      items.Perm [(.channel, channel), (.descriptor, descriptor)]

section Turns

variable {items : List (Kind × ℕ)} {channel descriptor : ℕ}

theorem tidy_of_owns {forward : Forward} (h : Owns [] forward) : Tidy forward where
  strays := h.1.strays
  between _ := h.1.held
  pumping channel descriptor hpumping := by
    rw [h.2] at hpumping
    cases hpumping

theorem Tidy.owns {forward : Forward} (h : Tidy forward) (hpumping : forward.pumping = none) :
    Owns [] forward :=
  ⟨⟨h.between hpumping, h.strays⟩, hpumping⟩

theorem owns_onHoldings {α : Type} {program : StateM (Holdings Kind) α}
    {after : α → List (Kind × ℕ)}
    (h : Triple (Are items) program fun value ↦ Are (after value)) :
    Triple (Owns items) (onHoldings program) fun value ↦ Owns (after value) :=
  fun forward howns ↦ ⟨h forward.holdings howns.1, howns.2⟩

theorem owns_onBooks (entry : Books → Books) : Keeps (Owns items) (onBooks entry) :=
  fun _ h ↦ h

theorem owns_approved (filter : Option (TcpEndpoint → Bool)) (peer : TcpEndpoint) :
    Keeps (Owns items) (approved filter peer) :=
  fun _ h ↦ h

theorem leavesChannel_runPump {bufferSize : ℕ} {rounds : List Round}
    (hitems : items.Perm [(.channel, channel), (.descriptor, descriptor)])
    (hleft : items.erase (.descriptor, descriptor) = [(.channel, channel)]) :
    Triple (Owns items) (runPump bufferSize rounds channel descriptor)
      fun _ ↦ LeavesChannel channel := by
  intro forward h
  have hare := are_pump (hitems.mem_iff.mpr List.mem_cons_self)
    (hitems.mem_iff.mpr (List.mem_cons_of_mem _ List.mem_cons_self)) bufferSize forward.books.stats
    rounds h.1
  cases hdone : (pump bufferSize forward.books.stats rounds).done with
  | true =>
    rw [hdone, if_pos rfl, hleft] at hare
    exact Or.inl ⟨hare, if_pos hdone⟩
  | false =>
    rw [hdone, if_neg Bool.false_ne_true] at hare
    have hpumping : (if (pump bufferSize forward.books.stats rounds).done then none
        else some (channel, descriptor)) = some (channel, descriptor) :=
      if_neg (hdone ▸ Bool.false_ne_true)
    exact Or.inr ⟨descriptor, hpumping, items, hare, hitems⟩

theorem tidy_freeChannel : Triple (LeavesChannel channel) (freeChannel channel) fun _ ↦ Tidy := by
  rintro forward (⟨hare, hpumping⟩ | ⟨descriptor, hpumping, items, hare, hitems⟩)
  · have hfree : freeChannel channel forward = onHoldings (release (.channel, channel)) forward :=
      if_neg (by rw [hpumping]; exact Bool.false_ne_true)
    rw [hfree]
    exact tidy_of_owns (owns_onHoldings (are_releaseLast _ []) forward ⟨hare, hpumping⟩)
  · have hfree : freeChannel channel forward = ((), forward) := if_pos (by rw [hpumping]; rfl)
    rw [hfree]
    refine ⟨hare.strays, fun hnone ↦ ?_, fun other below hsome ↦ ?_⟩
    · rw [hpumping] at hnone
      cases hnone
    · rw [hpumping] at hsome
      cases hsome
      exact hare.held ▸ hitems

/-- A turn starts between two others. -/
theorem tidy_turn {stopRequested : Bool} {body : StateM Forward Unit}
    (h : Triple (Owns []) body fun _ ↦ Tidy) : Keeps Tidy (turn stopRequested body) := by
  intro forward htidy
  unfold turn
  split_ifs with hoff hstop
  · exact htidy
  · exact ⟨htidy.strays, htidy.between, htidy.pumping⟩
  · have hpumping : forward.pumping = none := by
      cases hpumping : forward.pumping with
      | none => rfl
      | some pair => exact absurd (by rw [hpumping]; simp) hoff
    exact h forward (htidy.owns hpumping)

theorem tidy_localTurn (options : LocalForward.Options) (turn : LocalForward.Turn) :
    Keeps Tidy (LocalForward.serveTurn options turn) := by
  refine tidy_turn (Triple.ite (fun _ ↦ Triple.pure fun _ ↦ tidy_of_owns) fun _ ↦ ?_)
  refine Triple.bind (owns_onHoldings (are_acquire Kind.descriptor [])) fun clientFd ↦ ?_
  refine Triple.bind (owns_onBooks _) fun _ ↦ ?_
  refine Triple.bind (owns_approved _ _) fun approved ↦ ?_
  have hclose : Triple (Owns [(.descriptor, clientFd)])
      (onHoldings (release (.descriptor, clientFd))) fun _ ↦ Owns [] :=
    owns_onHoldings (are_releaseLast _ [])
  refine Triple.ite (fun _ ↦ ?_) fun _ ↦ ?_
  · exact Triple.bind hclose fun _ ↦ fun forward h ↦ tidy_of_owns h
  refine Triple.bind (owns_onBooks _) fun _ ↦ ?_
  refine Triple.bind (owns_onHoldings (are_openChannel _ turn.answers options.target))
    fun result ↦ ?_
  cases result with
  | error info =>
    refine Triple.bind (owns_onBooks _) fun _ ↦ ?_
    exact fun forward h ↦ tidy_of_owns (hclose forward h)
  | ok channel =>
    refine Triple.bind (owns_onBooks _) fun _ ↦ ?_
    exact Triple.bind
      (leavesChannel_runPump (List.Perm.refl _) (erase_below (by decide) _ _ [])) fun _ ↦
        tidy_freeChannel

theorem owns_takeIncoming (host : Option Bytes) (port : UInt16) :
    Triple (Owns []) (RemoteForward.takeIncoming host port)
      fun taken ↦ Owns [(.channel, taken.1)] := by
  refine Triple.bind (owns_onHoldings (are_acquire Kind.channel [])) fun channel ↦ ?_
  refine Triple.bind (owns_onBooks _) fun _ ↦ ?_
  cases host with
  | none => exact Triple.pure fun _ h ↦ h
  | some host =>
    refine Triple.bind (owns_onHoldings (are_acquire Kind.text _)) fun originator ↦ ?_
    exact Triple.bind (owns_onHoldings (are_releaseLast _ _)) fun _ ↦ Triple.pure fun _ h ↦ h

theorem tidy_remoteTurn (options : RemoteForward.Options) (turn : RemoteForward.Turn) :
    Keeps Tidy (RemoteForward.serveTurn options turn) := by
  refine tidy_turn ?_
  rcases turn.accepted with info | _ | ⟨host, port⟩
  · exact fun forward h ↦ tidy_of_owns h
  · exact Triple.pure fun _ ↦ tidy_of_owns
  refine Triple.bind (owns_takeIncoming host port) fun taken ↦ ?_
  refine Triple.bind ?_ fun _ ↦ tidy_freeChannel
  refine Triple.bind (owns_approved _ _) fun approved ↦ ?_
  refine Triple.ite (fun _ ↦ fun forward h ↦ Or.inl h) fun _ ↦ ?_
  refine Triple.bind (owns_onBooks _) fun _ ↦ ?_
  refine Triple.bind (owns_onHoldings (are_connectTarget _ options.localTarget turn.answers))
    fun result ↦ ?_
  cases result with
  | error info => exact fun forward h ↦ Or.inl h
  | ok clientFd =>
    refine Triple.bind (owns_onBooks _) fun _ ↦ ?_
    exact leavesChannel_runPump (List.Perm.swap _ _ _) (List.erase_cons_head _ _)

theorem tidy_x11Turn (singleConnection : Bool) (target : ForwardTarget)
    (turn : X11Forwarder.Turn) :
    Keeps Tidy (X11Forwarder.serveTurn singleConnection target turn) := by
  refine tidy_turn (Triple.ite (fun _ ↦ Triple.pure fun _ ↦ tidy_of_owns) fun _ ↦ ?_)
  refine Triple.bind (owns_onHoldings (are_acquire Kind.channel [])) fun channel ↦ ?_
  refine Triple.bind (owns_onHoldings (are_connectTarget _ target turn.answers)) fun result ↦ ?_
  cases result with
  | error info => exact fun forward h ↦ tidy_freeChannel forward (Or.inl h)
  | ok fd =>
    refine Triple.bind (owns_onBooks _) fun _ ↦ ?_
    refine Triple.bind (leavesChannel_runPump (List.Perm.swap _ _ _) (List.erase_cons_head _ _))
      fun _ ↦ ?_
    refine Triple.bind tidy_freeChannel fun _ forward h ↦ ?_
    exact ⟨h.strays, h.between, h.pumping⟩

end Turns

theorem tidy_start : Tidy {} := tidy_of_owns ⟨⟨rfl, rfl⟩, rfl⟩

/-- A connection that reaches its target by the third address: a channel, the address list and two
descriptors were given out. -/
example : (stateAfter (RemoteForward.serveTurn { localTarget := .tcp ⟨[], 22⟩ })
    [{ accepted := .ok (some (none, 5))
       answers := { addresses := [.noSocket, .socket false, .socket true] }
       rounds := [{ stopRequested := true }] }] {}).holdings = { next := 4 } := by
  decide +kernel

/-! ### The books -/

/-- The books after one turn: nobody came or `accept` failed, `try_accept` failed, or a connection
was taken and rejected, not passed on for an error, or pumped. -/
inductive Entered (filter : Option (TcpEndpoint → Bool)) (target : ForwardTarget) (books : Books) :
    Books → Prop
  | nobody : Entered filter target books books
  | failed (info : ErrorInfo) : Entered filter target books
      (Books.reportError info { books with unaccepted := books.unaccepted + 1 })
  | rejected (peer : TcpEndpoint) (hrejects : (filter.all fun filter ↦ filter peer) = false) :
      Entered filter target books (books.accept.ask filter peer).countRejected
  | unreached (peer : TcpEndpoint) (info : ErrorInfo)
      (happroves : (filter.all fun filter ↦ filter peer) = true) :
      Entered filter target books
        (((books.accept.ask filter peer).seek target).reportError info)
  | pumped (peer : TcpEndpoint) (bufferSize : ℕ) (rounds : List Round)
      (happroves : (filter.all fun filter ↦ filter peer) = true) :
      Entered filter target books
        (((books.accept.ask filter peer).seek target).countConnection.pump bufferSize rounds)

section Entered

variable {filter : Option (TcpEndpoint → Bool)} {target : ForwardTarget} {books : Books}

def BooksAre (books : Books) (forward : Forward) : Prop := forward.books = books

theorem booksAre_onHoldings {α : Type} (program : StateM (Holdings Kind) α) :
    Keeps (BooksAre books) (onHoldings program) := fun _ h ↦ h

theorem booksAre_onBooks (entry : Books → Books) :
    Triple (BooksAre books) (onBooks entry) fun _ ↦ BooksAre (entry books) :=
  fun _ h ↦ congrArg entry h

theorem booksAre_runPump (bufferSize : ℕ) (rounds : List Round) (channel descriptor : ℕ) :
    Triple (BooksAre books) (runPump bufferSize rounds channel descriptor)
      fun _ ↦ BooksAre (books.pump bufferSize rounds) :=
  fun _ h ↦ congrArg (Books.pump bufferSize rounds) h

theorem booksAre_freeChannel (channel : ℕ) : Keeps (BooksAre books) (freeChannel channel) := by
  intro forward h
  unfold freeChannel
  split_ifs <;> exact h

/-- The filter's answer decides how a turn goes on. -/
theorem booksAre_approved {peer : TcpEndpoint} {α : Type} {next : Bool → StateM Forward α}
    {post : α → Forward → Prop}
    (hrejects : (filter.all fun filter ↦ filter peer) = false →
      Triple (BooksAre (books.ask filter peer)) (next false) post)
    (happroves : (filter.all fun filter ↦ filter peer) = true →
      Triple (BooksAre (books.ask filter peer)) (next true) post) :
    Triple (BooksAre books) (approved filter peer >>= next) post := by
  have hasked : Triple (BooksAre books) (approved filter peer) fun answer forward ↦
      BooksAre (books.ask filter peer) forward ∧ answer = filter.all fun filter ↦ filter peer :=
    fun _ h ↦ ⟨congrArg (Books.ask filter peer) h, rfl⟩
  refine Triple.bind hasked fun answer ↦ Triple.of_fact fun hanswer ↦ ?_
  cases answer with
  | false => exact hrejects hanswer.symm
  | true => exact happroves hanswer.symm

theorem entered_turn {stopRequested : Bool} {body : StateM Forward Unit}
    (h : Triple (BooksAre books) body fun _ forward ↦ Entered filter target books forward.books) :
    Triple (BooksAre books) (turn stopRequested body)
      fun _ forward ↦ Entered filter target books forward.books := by
  rintro forward rfl
  unfold turn
  split_ifs
  · exact .nobody
  · exact .nobody
  · exact h forward rfl

theorem entered_localTurn (options : LocalForward.Options) (turn : LocalForward.Turn) :
    Triple (BooksAre books) (LocalForward.serveTurn options turn) fun _ forward ↦
      Entered options.acceptFilter options.target books forward.books := by
  refine entered_turn (Triple.ite (fun _ ↦ Triple.pure fun _ h ↦ h ▸ .nobody) fun _ ↦ ?_)
  refine Triple.bind (booksAre_onHoldings _) fun clientFd ↦ ?_
  refine Triple.bind (booksAre_onBooks .accept) fun _ ↦ ?_
  refine booksAre_approved (fun hrejects ↦ ?_) fun happroves ↦ ?_
  · refine Triple.bind (booksAre_onHoldings _) fun _ ↦ ?_
    exact (booksAre_onBooks _).mono (fun _ h ↦ h) fun _ _ h ↦ h ▸ .rejected _ hrejects
  refine Triple.bind (booksAre_onBooks _) fun _ ↦ ?_
  refine Triple.bind (booksAre_onHoldings _) fun result ↦ ?_
  cases result with
  | error info =>
    refine Triple.bind (booksAre_onBooks _) fun _ ↦ ?_
    exact (booksAre_onHoldings _).mono (fun _ h ↦ h) fun _ _ h ↦ h ▸ .unreached _ info happroves
  | ok channel =>
    refine Triple.bind (booksAre_onBooks .countConnection) fun _ ↦ ?_
    refine Triple.bind (booksAre_runPump _ _ _ _) fun _ ↦ ?_
    exact (booksAre_freeChannel _).mono (fun _ h ↦ h) fun _ _ h ↦ h ▸ .pumped _ _ _ happroves

theorem entered_remoteTurn (options : RemoteForward.Options) (turn : RemoteForward.Turn) :
    Triple (BooksAre books) (RemoteForward.serveTurn options turn) fun _ forward ↦
      Entered options.acceptFilter options.localTarget books forward.books := by
  refine entered_turn ?_
  rcases turn.accepted with info | _ | ⟨host, port⟩
  · refine Triple.bind (booksAre_onBooks _) fun _ ↦ ?_
    exact (booksAre_onBooks _).mono (fun _ h ↦ h) fun _ _ h ↦ h ▸ .failed info
  · exact Triple.pure fun _ h ↦ h ▸ .nobody
  have htake : Triple (BooksAre books) (RemoteForward.takeIncoming host port)
      fun _ ↦ BooksAre books.accept := by
    refine Triple.bind (booksAre_onHoldings _) fun channel ↦ ?_
    refine Triple.bind (booksAre_onBooks _) fun _ ↦ ?_
    cases host with
    | none => exact Triple.pure fun _ h ↦ h
    | some host =>
      refine Triple.bind (booksAre_onHoldings _) fun originator ↦ ?_
      exact Triple.bind (booksAre_onHoldings _) fun _ ↦ Triple.pure fun _ h ↦ h
  refine Triple.bind htake fun taken ↦ ?_
  have hpump : Triple (BooksAre books.accept)
      (RemoteForward.pumpOneConnection options turn taken.1 taken.2)
      fun _ forward ↦ Entered options.acceptFilter options.localTarget books forward.books := by
    refine booksAre_approved (fun hrejects ↦ ?_) fun happroves ↦ ?_
    · exact (booksAre_onBooks _).mono (fun _ h ↦ h) fun _ _ h ↦ h ▸ .rejected _ hrejects
    refine Triple.bind (booksAre_onBooks _) fun _ ↦ ?_
    refine Triple.bind (booksAre_onHoldings _) fun result ↦ ?_
    cases result with
    | error info =>
      exact (booksAre_onBooks _).mono (fun _ h ↦ h) fun _ _ h ↦ h ▸ .unreached _ info happroves
    | ok clientFd =>
      refine Triple.bind (booksAre_onBooks .countConnection) fun _ ↦ ?_
      exact (booksAre_runPump _ _ _ _).mono (fun _ h ↦ h) fun _ _ h ↦
        h ▸ .pumped _ _ _ happroves
  exact Triple.bind hpump fun _ forward h ↦ (booksAre_freeChannel taken.1 forward rfl).symm ▸ h

end Entered

/-- The counters and reports account for every connection that was taken and every `try_accept` that
failed: each one that was taken was rejected, reported or pumped, and is counted so; a connection
to the target was sought for those the filter approved and for no others; and the byte counters are
those of the pumps together. -/
structure Accounted (filter : Option (TcpEndpoint → Bool)) (target : ForwardTarget)
    (books : Books) : Prop where
  every : books.accepted + books.unaccepted =
    books.stats.connections + books.stats.rejected + books.errors.length
  asked : books.asked.length = if filter.isSome then books.accepted else 0
  answers : ∀ question ∈ books.asked, some question.2 = filter.map fun filter ↦ filter question.1
  rejected : books.stats.rejected = books.asked.countP fun question ↦ !question.2
  sought : books.attempts.length + books.stats.rejected = books.accepted
  target : ∀ other ∈ books.attempts, other = target
  pumped : books.pumped.length = books.stats.connections
  bytesOut : books.stats.bytesOut = (books.pumped.flatMap fun pump ↦ pump.channelRead).length
  bytesIn : books.stats.bytesIn = (books.pumped.flatMap fun pump ↦ pump.clientRead).length

section Accounted

variable {filter : Option (TcpEndpoint → Bool)} {target : ForwardTarget} {books : Books}

/-- A pump adds what it read at its two ends. -/
theorem pump_bytes (bufferSize : ℕ) (stats : ForwardStats) (rounds : List Round) :
    (pump bufferSize stats rounds).stats.bytesOut =
        stats.bytesOut + (pump bufferSize stats rounds).channelRead.length ∧
      (pump bufferSize stats rounds).stats.bytesIn =
        stats.bytesIn + (pump bufferSize stats rounds).clientRead.length := by
  have hstep : ∀ round, Keeps (fun state : PumpState ↦
      state.stats.bytesOut = stats.bytesOut + state.channelRead.length ∧
        state.stats.bytesIn = stats.bytesIn + state.clientRead.length)
      (pumpRound bufferSize round) := by
    intro round state h
    obtain ⟨hout, hin⟩ := pumpRound_moves bufferSize round state
    constructor
    · rw [hout.bytesOut, hout.channelRead, List.length_append, h.1, Nat.add_assoc]
    · rw [hin.bytesIn, hin.clientRead, List.length_append, h.2, Nat.add_assoc]
  exact invariant_of_keeps hstep rounds ⟨rfl, rfl⟩

/-- What is asked about one connection. -/
theorem Accounted.ask (h : Accounted filter target books) (peer : TcpEndpoint) :
    ∃ asked, books.accept.ask filter peer = { books.accept with asked } ∧
      asked.length = (if filter.isSome then books.accepted + 1 else 0) ∧
      (∀ question ∈ asked, some question.2 = filter.map fun filter ↦ filter question.1) ∧
      (asked.countP fun question ↦ !question.2) =
        books.stats.rejected + if (filter.all fun filter ↦ filter peer) then 0 else 1 := by
  have hlength := h.asked
  have hcount := h.rejected
  cases filter with
  | none => exact ⟨books.asked, rfl, hlength, h.answers, hcount.symm⟩
  | some filter =>
    refine ⟨books.asked ++ [(peer, filter peer)], rfl, ?_, fun question hquestion ↦ ?_, ?_⟩
    · rw [List.length_append, hlength]
      rfl
    · rcases List.mem_append.mp hquestion with hold | hnew
      · exact h.answers question hold
      · rw [List.mem_singleton.mp hnew]
        rfl
    · rw [List.countP_append, ← hcount, List.countP_singleton, Option.all_some]
      cases filter peer <;> rfl

theorem accounted_of_entered {after : Books} (h : Accounted filter target books)
    (hafter : Entered filter target books after) : Accounted filter target after := by
  have hevery := h.every
  have hsought := h.sought
  cases hafter with
  | nobody => exact h
  | failed info =>
    exact { h with
      every := by
        simp only [Books.reportError, List.length_append, List.length_singleton]
        omega }
  | rejected peer hrejects =>
    obtain ⟨asked, hask, hlength, hanswers, hcount⟩ := h.ask peer
    rw [hrejects, if_neg Bool.false_ne_true] at hcount
    rw [hask]
    exact {
      every := by simp only [Books.countRejected, Books.accept]; omega
      asked := hlength
      answers := hanswers
      rejected := hcount.symm
      sought := by simp only [Books.countRejected, Books.accept]; omega
      target := h.target
      pumped := h.pumped
      bytesOut := h.bytesOut
      bytesIn := h.bytesIn }
  | unreached peer info happroves =>
    obtain ⟨asked, hask, hlength, hanswers, hcount⟩ := h.ask peer
    rw [happroves, if_pos rfl, Nat.add_zero] at hcount
    rw [hask]
    exact {
      every := by
        simp only [Books.reportError, Books.seek, Books.accept, List.length_append,
          List.length_singleton]
        omega
      asked := hlength
      answers := hanswers
      rejected := hcount.symm
      sought := by
        simp only [Books.reportError, Books.seek, Books.accept, List.length_append,
          List.length_singleton]
        omega
      target := fun other hother ↦ (List.mem_append.mp hother).elim (h.target other)
        List.mem_singleton.mp
      pumped := h.pumped
      bytesOut := h.bytesOut
      bytesIn := h.bytesIn }
  | pumped peer bufferSize rounds happroves =>
    obtain ⟨asked, hask, hlength, hanswers, hcount⟩ := h.ask peer
    rw [happroves, if_pos rfl, Nat.add_zero] at hcount
    rw [hask]
    let counted : ForwardStats :=
      { books.stats with connections := books.stats.connections + 1 }
    obtain ⟨hconnections, hrejected⟩ :
      (pump bufferSize counted rounds).stats.connections = counted.connections ∧
        (pump bufferSize counted rounds).stats.rejected = counted.rejected := pump_counters rounds
    obtain ⟨hout, hin⟩ := pump_bytes bufferSize counted rounds
    have hconnections' : (pump bufferSize counted rounds).stats.connections =
        books.stats.connections + 1 := hconnections
    have hrejected' : (pump bufferSize counted rounds).stats.rejected =
        books.stats.rejected := hrejected
    exact {
      every := by
        simp only [Books.pump, Books.countConnection, Books.seek, Books.accept]
        rw [hconnections', hrejected']
        omega
      asked := hlength
      answers := hanswers
      rejected := hrejected'.trans hcount.symm
      sought := by
        simp only [Books.pump, Books.countConnection, Books.seek, Books.accept,
          List.length_append, List.length_singleton]
        rw [hrejected']
        omega
      target := fun other hother ↦ (List.mem_append.mp hother).elim (h.target other)
        List.mem_singleton.mp
      pumped := by
        simp only [Books.pump, Books.countConnection, Books.seek, Books.accept,
          List.length_append, List.length_singleton]
        rw [hconnections', h.pumped]
      bytesOut := by
        simp only [Books.pump, Books.countConnection, Books.seek, Books.accept,
          List.flatMap_append, List.flatMap_singleton, List.length_append]
        rw [hout, ← h.bytesOut]
      bytesIn := by
        simp only [Books.pump, Books.countConnection, Books.seek, Books.accept,
          List.flatMap_append, List.flatMap_singleton, List.length_append]
        rw [hin, ← h.bytesIn] }

end Accounted

theorem accounted_start (filter : Option (TcpEndpoint → Bool)) (target : ForwardTarget) :
    Accounted filter target {} where
  every := rfl
  asked := (ite_self 0).symm
  answers _ hquestion := absurd hquestion List.not_mem_nil
  rejected := rfl
  sought := rfl
  target _ hother := absurd hother List.not_mem_nil
  pumped := rfl
  bytesOut := rfl
  bytesIn := rfl

end LibSshpp.Forwarding
