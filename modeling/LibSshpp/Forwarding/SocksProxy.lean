import LibSshpp.Client.Session
import LibSshpp.Forwarding.Pump
import LibSshpp.Forwarding.SocksRequest

/-!
One connection of the dynamic forwarding proxy, from the version byte to the
pump. The destination is decided twice: `Options::allow` is asked about the
target as the library holds it, a counted string, and three calls further down
`ssh_channel_open_forward` gets its host as a C string. The two agree unless a
SOCKS5 domain name carries a NUL byte.
-/

set_option autoImplicit false
set_option relaxedAutoImplicit false

namespace LibSshpp.Forwarding

open Posix Client

def socksVersion4 : UInt8 := 0x04

/-- `SocksProxy::Options`, as far as a connection reads them. -/
structure SocksOptions where
  allowSocks4 : Bool := false
  bufferSize : ℕ := 64 * 1024
  allow : Option (ForwardTarget → Bool) := none

/-- A call that asks libssh to open a forwarding channel, with the arguments as
libssh sees them. -/
inductive NativeOpen
  | forward (remoteHost : Bytes) (remotePort : UInt16) (originHost : Bytes) (originPort : UInt16)
  | forwardUnix (remotePath originHost : Bytes) (originPort : UInt16)
  deriving DecidableEq, Repr

/-- What serving a connection has done: the client's socket, the counters, the
questions put to `allow` with their answers, the channels asked of libssh, the
errors reported and the pump, if it was started. -/
structure Connection where
  socket : StreamSocket
  stats : ForwardStats := {}
  asked : List (ForwardTarget × Bool) := []
  opens : List NativeOpen := []
  errors : List ErrorInfo := []
  pumped : Option PumpState := none

/-- The openers of forwarding channels differ in the call they make and name: the
calls made and the result. -/
def openForwarding (operation : String) (call : NativeOpen) (answers : OpenAnswers) :
    List NativeOpen × Result Unit :=
  if answers.created = false then
    ([], .error (makeErrorInfo answers.lastError "ssh_channel_new" .channelOpenFailed))
  else
    ([call],
      if answers.rc ≠ sshOk then
        .error (makeErrorInfo answers.lastError operation .forwardingFailed)
      else .ok ())

/-- `Channel::open_forward`. -/
def openForward (answers : OpenAnswers) (remoteHost : Bytes) (remotePort : UInt16)
    (origin : TcpEndpoint) : List NativeOpen × Result Unit :=
  openForwarding "ssh_channel_open_forward"
    (.forward (cString remoteHost) remotePort (cString origin.host) origin.port) answers

/-- `Channel::open_forward_unix`. -/
def openForwardUnix (answers : OpenAnswers) (remoteSocket : Bytes) (origin : TcpEndpoint) :
    List NativeOpen × Result Unit :=
  openForwarding "ssh_channel_open_forward_unix"
    (.forwardUnix (cString remoteSocket) (cString origin.host) origin.port) answers

/-- The origin a channel is opened with when the caller names none. -/
def defaultOrigin : TcpEndpoint := { host := ascii "127.0.0.1", port := 0 }

def openDirect (answers : OpenAnswers) (remote : ForwardTarget) (origin : TcpEndpoint) :
    List NativeOpen × Result Unit :=
  match remote with
  | .tcp endpoint => openForward answers endpoint.host endpoint.port origin
  | .unix endpoint => openForwardUnix answers endpoint.path origin

/-- `reply_socks5`, whose result nobody looks at. -/
def replySocks5 (status : UInt8) (socket : StreamSocket) : StreamSocket :=
  (sendExact [socksVersion5, status, 0x00, 0x01, 0, 0, 0, 0, 0, 0] socket).2

def replySocks4 (granted : Bool) (socket : StreamSocket) : StreamSocket :=
  (sendExact [0x00, if granted then 0x5a else 0x5b, 0, 0, 0, 0, 0, 0] socket).2

/-- The beginning of `serve_one_connection`: the version byte and the request it
announces. Every way to give up here closes the socket and returns. -/
def readRequest (options : SocksOptions) : SocketM (Bool × ForwardTarget) := do
  let firstByte ← recvExact 1
  if byteAt firstByte 0 = socksVersion4 ∧ options.allowSocks4 = false then failure
  else if byteAt firstByte 0 ≠ socksVersion4 ∧ byteAt firstByte 0 ≠ socksVersion5 then failure
  else if byteAt firstByte 0 = socksVersion4 then do
    let target ← readSocks4Request
    pure (true, target)
  else do
    let target ← readSocks5Request
    pure (false, target)

/-- `serve_one_connection`, with libssh's answers to opening the channel and what
happens around the pump. -/
def serveOneConnection (options : SocksOptions) (answers : OpenAnswers) (rounds : List Round)
    (connection : Connection) : Connection :=
  match readRequest options connection.socket with
  | (none, socket) => { connection with socket }
  | (some (isSocks4, target), socket) =>
    let refused (status : UInt8) : StreamSocket :=
      if isSocks4 then replySocks4 false socket else replySocks5 status socket
    let verdict := options.allow.map fun allow ↦ allow target
    let connection := { connection with
      socket, asked := connection.asked ++ (verdict.map fun answer ↦ (target, answer)).toList }
    if verdict = some false then
      { connection with
        stats := { connection.stats with rejected := connection.stats.rejected + 1 }
        socket := refused 0x02 }
    else
      let (calls, result) := openDirect answers target defaultOrigin
      let connection := { connection with opens := connection.opens ++ calls }
      match result with
      | .error info =>
        { connection with errors := connection.errors ++ [info], socket := refused 0x01 }
      | .ok () =>
        let stats := { connection.stats with connections := connection.stats.connections + 1 }
        let pumped := pump options.bufferSize stats rounds
        { connection with
          socket := if isSocks4 then replySocks4 true socket else replySocks5 0x00 socket
          stats := pumped.stats
          pumped := some pumped }

/-! ### The target that is read -/

theorem readSocks4Request_yields :
    Yields readSocks4Request fun target ↦
      ∃ endpoint : TcpEndpoint, target = .tcp endpoint ∧ 0 ∉ endpoint.host := by
  refine yields_bind fun rest ↦ ?_
  split_ifs
  · exact fun _ _ h ↦ nomatch h
  · refine yields_bind fun _ socket target h ↦ ?_
    obtain rfl := Option.some.inj h
    exact ⟨_, rfl, nul_notMem_inetNtop4 _⟩

theorem readSocks5Request_yields :
    Yields readSocks5Request fun target ↦ ∃ endpoint : TcpEndpoint, target = .tcp endpoint := by
  refine yields_bind fun _ ↦ yields_bind fun methods ↦ yields_bind fun sent ↦ ?_
  split_ifs
  · exact fun _ _ h ↦ nomatch h
  · refine yields_bind fun req ↦ ?_
    split_ifs
    · exact fun _ _ h ↦ nomatch h
    · refine yields_bind fun host ↦ yields_bind fun port socket target h ↦ ?_
      obtain rfl := Option.some.inj h
      exact ⟨_, rfl⟩

/-- A SOCKS5 client that cannot be answered gets no further than the method
negotiation. -/
theorem readSocks5Request_unwritable {socket : StreamSocket} (h : socket.writable = false) :
    (readSocks5Request socket).1 = none := by
  by_contra hsome
  obtain ⟨target, htarget⟩ := Option.ne_none_iff_exists'.mp hsome
  obtain ⟨_, _, hwritable, htarget⟩ := recvExact_bind htarget
  obtain ⟨_, after, hwritable', htarget⟩ := recvExact_bind htarget
  rw [socket_bind, sendExact_unwritable (hwritable'.trans (hwritable.trans h))] at htarget
  simp only [true_or, if_true] at htarget
  exact nomatch htarget

/-- On a writable socket the SOCKS5 reader returns a target exactly for a CONNECT
request, after which the stream goes on with `rest`. -/
theorem readSocks5Request_eq_some_iff {socket : StreamSocket} (hwritable : socket.writable = true)
    {target : ForwardTarget} :
    (readSocks5Request socket).1 = some target ↔
      ∃ (request : Socks5Connect) (rest : Bytes),
        socket.incoming = request.encode ++ rest ∧ request.target = target := by
  obtain ⟨haccepts, hrefuses⟩ := reads_iff_of_follows follows_readSocks5Request
    socks5Grammar_eq_some_iff socket hwritable
  constructor
  · intro htarget
    by_contra hnone
    have hother : ∀ (request : Socks5Connect) (rest : Bytes),
        socket.incoming ≠ request.encode ++ rest := by
      intro request rest hincoming
      have hread := (haccepts request rest hincoming).1
      exact hnone ⟨request, rest, hincoming, Option.some.inj (hread.symm.trans htarget)⟩
    exact nomatch (hrefuses hother).symm.trans htarget
  · rintro ⟨request, rest, hincoming, rfl⟩
    exact (haccepts request rest hincoming).1

/-- The version byte, and the socket after it. -/
theorem readRequest_first {options : SocksOptions} {socket : StreamSocket}
    {value : Bool × ForwardTarget} (h : (readRequest options socket).1 = some value) :
    ∃ (version : UInt8) (rest : Bytes) (after : StreamSocket),
      socket.incoming = version :: rest ∧ after.incoming = rest ∧
        after.writable = socket.writable ∧
        ((version = socksVersion4 ∧ value.1 = true ∧
            (readSocks4Request after).1 = some value.2) ∨
          (version = socksVersion5 ∧ value.1 = false ∧
            (readSocks5Request after).1 = some value.2)) := by
  rw [readRequest, socket_bind] at h
  rcases hincoming : socket.incoming with _ | ⟨version, rest⟩
  · have hfails : (recvExact 1 socket).1 = none :=
      (recvLoop_spec 1 1 [] socket le_rfl).2.2 (by simp [hincoming])
    rw [hfails] at h
    exact nomatch h
  · obtain ⟨hversion, hafter, hwritable⟩ := recvExact_one hincoming
    rw [hversion] at h
    refine ⟨version, rest, (recvExact 1 socket).2, rfl, hafter, hwritable, ?_⟩
    simp only [show byteAt [version] 0 = version from rfl] at h
    split_ifs at h with hrefused hother hfour
    · exact nomatch h
    · exact nomatch h
    · rw [socket_bind] at h
      rcases hread : (readSocks4Request (recvExact 1 socket).2).1 with _ | target
      · rw [hread] at h
        exact nomatch h
      · rw [hread] at h
        obtain rfl := Option.some.inj h
        exact .inl ⟨hfour, rfl, rfl⟩
    · rw [socket_bind] at h
      rcases hread : (readSocks5Request (recvExact 1 socket).2).1 with _ | target
      · rw [hread] at h
        exact nomatch h
      · rw [hread] at h
        obtain rfl := Option.some.inj h
        exact .inr ⟨by_contra fun hfive ↦ hother ⟨hfour, hfive⟩, rfl, rfl⟩

theorem readRequest_of_connect (options : SocksOptions) {socket : StreamSocket}
    (hwritable : socket.writable = true) {request : Socks5Connect} {rest : Bytes}
    (hincoming : socket.incoming = socksVersion5 :: (request.encode ++ rest)) :
    (readRequest options socket).1 = some (false, request.target) := by
  obtain ⟨hversion, hafter, hkeep⟩ := recvExact_one hincoming
  have hread : (readSocks5Request (recvExact 1 socket).2).1 = some request.target :=
    (readSocks5Request_eq_some_iff (hkeep.trans hwritable)).mpr ⟨request, rest, hafter, rfl⟩
  have hother : socksVersion5 ≠ socksVersion4 := by decide
  rw [readRequest, socket_bind, hversion]
  simp only [show byteAt [socksVersion5] 0 = socksVersion5 from rfl, ne_eq, hother, false_and,
    not_true_eq_false, and_false, if_false]
  rw [socket_bind, hread]
  rfl

/-- A NUL byte in the host that is read comes from the domain name of a SOCKS5
request. -/
theorem readRequest_nul {options : SocksOptions} {socket : StreamSocket} {isSocks4 : Bool}
    {endpoint : TcpEndpoint}
    (h : (readRequest options socket).1 = some (isSocks4, .tcp endpoint))
    (hnul : 0 ∈ endpoint.host) :
    socket.writable = true ∧ ∃ (request : Socks5Connect) (rest : Bytes) (name : _),
      socket.incoming = socksVersion5 :: (request.encode ++ rest) ∧
        request.address = .domain name ∧ 0 ∈ name.val ∧ request.target = .tcp endpoint := by
  obtain ⟨version, rest, after, hincoming, hafter, hwritable, hread⟩ := readRequest_first h
  rcases hread with ⟨-, -, hread⟩ | ⟨hversion, -, hread⟩
  · obtain ⟨other, hother, hfree⟩ := readSocks4Request_yields after _ hread
    obtain rfl := ForwardTarget.tcp.inj hother
    exact absurd hnul hfree
  · have hafterWritable : after.writable = true := by
      by_contra hclosed
      rw [readSocks5Request_unwritable (by simpa using hclosed)] at hread
      exact nomatch hread
    obtain ⟨request, tail, hencode, htarget⟩ :=
      (readSocks5Request_eq_some_iff hafterWritable).mp hread
    have hhost : request.address.host = endpoint.host :=
      congrArg TcpEndpoint.host (ForwardTarget.tcp.inj htarget)
    rw [← hhost] at hnul
    refine ⟨hwritable.symm.trans hafterWritable, request, tail, ?_⟩
    rw [hincoming, hversion, ← hafter, hencode]
    rcases haddress : request.address with address | name | address
    · rw [haddress] at hnul
      exact absurd hnul (nul_notMem_inetNtop4 _)
    · rw [haddress] at hnul
      exact ⟨name, rfl, rfl, hnul, htarget⟩
    · rw [haddress] at hnul
      exact absurd hnul (nul_notMem_inetNtop6 _)

theorem readRequest_tcp {options : SocksOptions} {socket : StreamSocket} {isSocks4 : Bool}
    {target : ForwardTarget} (h : (readRequest options socket).1 = some (isSocks4, target)) :
    ∃ endpoint : TcpEndpoint, target = .tcp endpoint := by
  obtain ⟨_, _, after, -, -, -, hread⟩ := readRequest_first h
  rcases hread with ⟨-, -, hread⟩ | ⟨-, -, hread⟩
  · obtain ⟨endpoint, hendpoint, -⟩ := readSocks4Request_yields after _ hread
    exact ⟨endpoint, hendpoint⟩
  · exact readSocks5Request_yields after _ hread

/-! ### What is approved and what is opened -/

theorem openDirect_tcp (answers : OpenAnswers) (endpoint origin : TcpEndpoint) :
    (openDirect answers (.tcp endpoint) origin).1 =
      if answers.created then
        [.forward (cString endpoint.host) endpoint.port (cString origin.host) origin.port]
      else [] := by
  cases hcreated : answers.created <;> simp [openDirect, openForward, openForwarding, hcreated]

section Serve

variable (options : SocksOptions) (allow : ForwardTarget → Bool) (answers : OpenAnswers)
  (rounds : List Round) (socket : StreamSocket) (stats : ForwardStats)

/-- A fresh connection, served by a proxy that asks `allow`. -/
def serveAsking : Connection :=
  serveOneConnection { options with allow := some allow } answers rounds { socket, stats }

variable {socket}

theorem serveAsking_unread
    (h : (readRequest { options with allow := some allow } socket).1 = none) :
    (serveAsking options allow answers rounds socket stats).opens = [] := by
  have hrun : readRequest { options with allow := some allow } socket =
      (none, (readRequest { options with allow := some allow } socket).2) := Prod.ext h rfl
  rw [serveAsking, serveOneConnection, hrun]

theorem serveAsking_read {isSocks4 : Bool} {target : ForwardTarget}
    (h : (readRequest { options with allow := some allow } socket).1 = some (isSocks4, target)) :
    (serveAsking options allow answers rounds socket stats).asked = [(target, allow target)] ∧
      (serveAsking options allow answers rounds socket stats).opens =
        if allow target then (openDirect answers target defaultOrigin).1 else [] := by
  have hrun : readRequest { options with allow := some allow } socket =
      (some (isSocks4, target), (readRequest { options with allow := some allow } socket).2) :=
    Prod.ext h rfl
  rw [serveAsking, serveOneConnection, hrun]
  simp only [Option.map_some, Option.some.injEq]
  cases allow target with
  | false => exact ⟨rfl, rfl⟩
  | true =>
    simp only [Bool.true_eq_false, if_false]
    rcases (openDirect answers target defaultOrigin).2 with info | _ <;> exact ⟨rfl, rfl⟩

/-- The call opens exactly the host and port that `allow` was asked about and
approved. -/
def AsApproved (connection : Connection) (call : NativeOpen) : Prop :=
  ∃ (endpoint : TcpEndpoint) (originHost : Bytes) (originPort : UInt16),
    connection.asked = [(.tcp endpoint, true)] ∧
      call = .forward endpoint.host endpoint.port originHost originPort

variable (socket)

/-- The client asks over SOCKS5 for a domain name with a NUL byte in it, and
`allow` approves the name. -/
def SlipsThrough : Prop :=
  socket.writable = true ∧ answers.created = true ∧
    ∃ (request : Socks5Connect) (rest : Bytes) (name : _),
      socket.incoming = socksVersion5 :: (request.encode ++ rest) ∧
        request.address = .domain name ∧ 0 ∈ name.val ∧ allow request.target = true

/-- For every request stream, every predicate and every answer of libssh, the
proxy opens only what the predicate approved if and only if the client does not
slip an approved name with a NUL byte through. -/
theorem opens_asApproved_iff :
    (∀ call ∈ (serveAsking options allow answers rounds socket stats).opens,
      AsApproved (serveAsking options allow answers rounds socket stats) call) ↔
        ¬ SlipsThrough allow answers socket := by
  constructor
  · rintro hall ⟨hwritable, hcreated, request, rest, name, hincoming, haddress, hnul, happroved⟩
    obtain ⟨hasked, hopens⟩ := serveAsking_read options allow answers rounds stats
      (readRequest_of_connect _ hwritable hincoming)
    rw [happroved] at hasked
    rw [if_pos happroved, Socks5Connect.target, openDirect_tcp, if_pos hcreated] at hopens
    obtain ⟨endpoint, originHost, originPort, hsame, hcall⟩ :=
      hall _ (hopens ▸ List.mem_singleton_self _)
    obtain ⟨htarget, -⟩ := Prod.mk.inj (List.singleton_inj.mp (hasked.symm.trans hsame))
    obtain rfl := ForwardTarget.tcp.inj htarget
    have hhost : cString request.address.host = request.address.host :=
      (NativeOpen.forward.inj hcall).1
    rw [haddress] at hhost
    exact cString_ne_self hnul hhost
  · intro hclean call hcall
    rcases hread : (readRequest { options with allow := some allow } socket).1 with
      _ | ⟨isSocks4, target⟩
    · rw [serveAsking_unread options allow answers rounds stats hread] at hcall
      exact absurd hcall List.not_mem_nil
    · obtain ⟨hasked, hopens⟩ := serveAsking_read options allow answers rounds stats hread
      obtain ⟨endpoint, rfl⟩ := readRequest_tcp hread
      rw [hopens, openDirect_tcp] at hcall
      split_ifs at hcall with happroved hcreated
      · have hfree : 0 ∉ endpoint.host := by
          intro hnul
          obtain ⟨hwritable, request, rest, name, hincoming, haddress, hname, htarget⟩ :=
            readRequest_nul hread hnul
          exact hclean ⟨hwritable, hcreated, request, rest, name, hincoming, haddress, hname,
            htarget ▸ happroved⟩
        rw [cString_eq_self hfree] at hcall
        exact ⟨endpoint, _, _, happroved ▸ hasked, List.mem_singleton.mp hcall⟩
      · exact absurd hcall List.not_mem_nil
      · exact absurd hcall List.not_mem_nil

end Serve

/-- A SOCKS5 client that asks for port 22 of `db\0.example.org`. -/
def nulNameClient : StreamSocket where
  incoming := [5, 1, 0, 5, 1, 0, 3, 15] ++ ascii "db" ++ [0] ++ ascii ".example.org" ++ [0, 22]

/-- A policy that approves the hosts under `.example.org`. -/
def underExampleOrg : ForwardTarget → Bool
  | .tcp endpoint => (ascii ".example.org").isSuffixOf endpoint.host
  | .unix _ => false

/-- The policy approves the name, and libssh is told to connect to `db`, which
the policy refuses. -/
theorem nulNameClient_opens_other_host :
    let served := serveAsking {} underExampleOrg { created := true, rc := 0 } [] nulNameClient {}
    served.opens = [.forward (ascii "db") 22 (ascii "127.0.0.1") 0] ∧
      underExampleOrg (.tcp { host := ascii "db", port := 22 }) = false ∧
      ¬ ∀ call ∈ served.opens, AsApproved served call := by
  intro served
  have hopens : served.opens = [.forward (ascii "db") 22 (ascii "127.0.0.1") 0] := by
    decide +kernel
  have hasked : served.asked =
      [(.tcp { host := ascii "db" ++ [0] ++ ascii ".example.org", port := 22 }, true)] := by
    decide +kernel
  refine ⟨hopens, by decide, fun hall ↦ ?_⟩
  obtain ⟨endpoint, _, _, hsame, hcall⟩ := hall _ (hopens ▸ List.mem_singleton_self _)
  rw [hasked] at hsame
  obtain ⟨htarget, -⟩ := Prod.mk.inj (List.singleton_inj.mp hsame)
  obtain rfl := ForwardTarget.tcp.inj htarget
  exact absurd (NativeOpen.forward.inj hcall).1 (by decide)

end LibSshpp.Forwarding
