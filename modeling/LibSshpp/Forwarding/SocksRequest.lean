import LibSshpp.Posix.InetText
import LibSshpp.Posix.StreamSocket
import Mathlib.Data.List.Basic

/-!
The SOCKS request readers of the dynamic forwarding proxy. `read_socks5_request`
and `read_socks4_request` consume a client's request from the connection byte by
byte, answering the SOCKS5 method negotiation on the way; the version byte has
been read by the caller. Both are shown to follow a grammar of the stream, and
the grammars to accept exactly the encodings of CONNECT requests, with nothing
after the request touched.
-/

set_option autoImplicit false
set_option relaxedAutoImplicit false

namespace LibSshpp.Forwarding

open Posix

structure TcpEndpoint where
  host : Bytes
  port : UInt16
  deriving DecidableEq, Repr

structure UnixEndpoint where
  path : Bytes
  deriving DecidableEq, Repr

inductive ForwardTarget
  | tcp (endpoint : TcpEndpoint)
  | unix (endpoint : UnixEndpoint)
  deriving DecidableEq, Repr

def socksVersion5 : UInt8 := 0x05
def socksConnect : UInt8 := 0x01

/-- Element `index` of a buffer filled by `recv_exact`. -/
def byteAt (buffer : Bytes) (index : ℕ) : UInt8 := buffer.getD index 0

/-- The 16-bit port in network byte order. -/
def portOf (high low : UInt8) : UInt16 := (high.toUInt16 <<< 8) ||| low.toUInt16

/-- The address part of a SOCKS5 request, by its address type. -/
def readSocks5Host (atyp : UInt8) : SocketM Bytes :=
  if atyp = 0x01 then do
    let address ← recvExact 4
    pure (inetNtop4 address)
  else if atyp = 0x03 then do
    let len ← recvExact 1
    if byteAt len 0 = 0 then failure
    else recvExact (byteAt len 0).toNat
  else if atyp = 0x04 then do
    let address ← recvExact 16
    pure (inetNtop6 address)
  else failure

/-- `read_socks5_request`: method negotiation, then the CONNECT request. -/
def readSocks5Request : SocketM ForwardTarget := do
  let nmethods ← recvExact 1
  let methods ← recvExact (byteAt nmethods 0).toNat
  let sent ← sendExact [socksVersion5, if 0x00 ∈ methods then 0x00 else 0xff]
  if sent = false ∨ 0x00 ∉ methods then failure
  else do
    let req ← recvExact 4
    if byteAt req 0 ≠ socksVersion5 ∨ byteAt req 1 ≠ socksConnect then failure
    else do
      let host ← readSocks5Host (byteAt req 3)
      let portBytes ← recvExact 2
      pure (.tcp { host, port := portOf (byteAt portBytes 0) (byteAt portBytes 1) })

/-- The loop of `read_socks4_request` that drains the user id, with the rounds it
has left; the last round must see the terminating NUL. -/
def drainUserId : ℕ → SocketM Unit
  | 0 => pure ()
  | left + 1 => do
    let byte ← recvExact 1
    if byteAt byte 0 = 0 then pure ()
    else if left = 0 then failure
    else drainUserId left

/-- `read_socks4_request`, after the version byte. -/
def readSocks4Request : SocketM ForwardTarget := do
  let rest ← recvExact 7
  if byteAt rest 0 ≠ socksConnect then failure
  else do
    drainUserId 256
    pure (.tcp {
      host := inetNtop4 (rest.drop 3)
      port := portOf (byteAt rest 1) (byteAt rest 2) })

/-! ### The requests on the wire -/

/-- The destination address of a SOCKS5 request. -/
inductive Socks5Address
  | ipv4 (address : { bytes : Bytes // bytes.length = 4 })
  | domain (name : { bytes : Bytes // 1 ≤ bytes.length ∧ bytes.length ≤ 255 })
  | ipv6 (address : { bytes : Bytes // bytes.length = 16 })

/-- The address type followed by the address. -/
def Socks5Address.encode : Socks5Address → Bytes
  | .ipv4 address => 0x01 :: address.val
  | .domain name => 0x03 :: name.val.length.toUInt8 :: name.val
  | .ipv6 address => 0x04 :: address.val

def Socks5Address.host : Socks5Address → Bytes
  | .ipv4 address => inetNtop4 address.val
  | .domain name => name.val
  | .ipv6 address => inetNtop6 address.val

/-- A SOCKS5 negotiation that offers "no authentication" and a CONNECT request. -/
structure Socks5Connect where
  methods : Bytes
  methods_length : methods.length ≤ 255
  offersNoAuth : 0x00 ∈ methods
  reserved : UInt8
  address : Socks5Address
  portHigh : UInt8
  portLow : UInt8

def Socks5Connect.encode (request : Socks5Connect) : Bytes :=
  request.methods.length.toUInt8 :: request.methods ++
    [socksVersion5, socksConnect, request.reserved] ++ request.address.encode ++
      [request.portHigh, request.portLow]

/-- The endpoint the request names, its port in big-endian order. -/
def Socks5Connect.target (request : Socks5Connect) : ForwardTarget :=
  .tcp {
    host := request.address.host
    port := UInt16.ofNat (256 * request.portHigh.toNat + request.portLow.toNat) }

/-- A SOCKS4 CONNECT request, without its version byte. -/
structure Socks4Connect where
  portHigh : UInt8
  portLow : UInt8
  address : Bytes
  address_length : address.length = 4
  userId : Bytes
  userId_length : userId.length ≤ 255
  userId_noNul : 0 ∉ userId

def Socks4Connect.encode (request : Socks4Connect) : Bytes :=
  [socksConnect, request.portHigh, request.portLow] ++ request.address ++ request.userId ++ [0]

def Socks4Connect.target (request : Socks4Connect) : ForwardTarget :=
  .tcp {
    host := inetNtop4 request.address
    port := UInt16.ofNat (256 * request.portHigh.toNat + request.portLow.toNat) }

theorem portOf_eq_bigEndian (high low : UInt8) :
    portOf high low = UInt16.ofNat (256 * high.toNat + low.toNat) := by
  have hlow := low.toNat_lt
  have hhigh := high.toNat_lt
  apply UInt16.toNat.inj
  have hshift : (high.toUInt16 <<< 8).toNat = high.toNat <<< 8 := by
    simp [UInt16.toNat_shiftLeft, Nat.shiftLeft_eq]
    omega
  rw [portOf, UInt16.toNat_or, hshift, UInt8.toNat_toUInt16,
    ← Nat.shiftLeft_add_eq_or_of_lt (by omega), Nat.shiftLeft_eq, UInt16.toNat_ofNat']
  omega

/-! ### The grammars the readers follow -/

def socks5HostGrammar (atyp : UInt8) : StreamGrammar Bytes :=
  if atyp = 0x01 then do
    let address ← takeBytes 4
    pure (inetNtop4 address)
  else if atyp = 0x03 then do
    let len ← takeBytes 1
    if byteAt len 0 = 0 then failure
    else takeBytes (byteAt len 0).toNat
  else if atyp = 0x04 then do
    let address ← takeBytes 16
    pure (inetNtop6 address)
  else failure

def socks5Grammar : StreamGrammar ForwardTarget := do
  let nmethods ← takeBytes 1
  let methods ← takeBytes (byteAt nmethods 0).toNat
  let sent ← pure true
  if sent = false ∨ 0x00 ∉ methods then failure
  else do
    let req ← takeBytes 4
    if byteAt req 0 ≠ socksVersion5 ∨ byteAt req 1 ≠ socksConnect then failure
    else do
      let host ← socks5HostGrammar (byteAt req 3)
      let portBytes ← takeBytes 2
      pure (.tcp { host, port := portOf (byteAt portBytes 0) (byteAt portBytes 1) })

def userIdGrammar : ℕ → StreamGrammar Unit
  | 0 => pure ()
  | left + 1 => do
    let byte ← takeBytes 1
    if byteAt byte 0 = 0 then pure ()
    else if left = 0 then failure
    else userIdGrammar left

def socks4Grammar : StreamGrammar ForwardTarget := do
  let rest ← takeBytes 7
  if byteAt rest 0 ≠ socksConnect then failure
  else do
    userIdGrammar 256
    pure (.tcp {
      host := inetNtop4 (rest.drop 3)
      port := portOf (byteAt rest 1) (byteAt rest 2) })

theorem follows_readSocks5Host (atyp : UInt8) :
    Follows (readSocks5Host atyp) (socks5HostGrammar atyp) := by
  refine follows_ite (follows_bind (follows_recvExact 4) fun _ ↦ follows_pure _) ?_
  refine follows_ite (follows_bind (follows_recvExact 1) fun _ ↦ ?_) ?_
  · exact follows_ite follows_failure (follows_recvExact _)
  · exact follows_ite (follows_bind (follows_recvExact 16) fun _ ↦ follows_pure _)
      follows_failure

theorem follows_readSocks5Request : Follows readSocks5Request socks5Grammar := by
  refine follows_bind (follows_recvExact 1) fun _ ↦ ?_
  refine follows_bind (follows_recvExact _) fun _ ↦ ?_
  refine follows_bind (follows_sendExact _) fun _ ↦ ?_
  refine follows_ite follows_failure ?_
  refine follows_bind (follows_recvExact 4) fun _ ↦ ?_
  refine follows_ite follows_failure ?_
  refine follows_bind (follows_readSocks5Host _) fun _ ↦ ?_
  exact follows_bind (follows_recvExact 2) fun _ ↦ follows_pure _

theorem follows_drainUserId (left : ℕ) : Follows (drainUserId left) (userIdGrammar left) := by
  induction left with
  | zero => exact follows_pure ()
  | succ left ih =>
    refine follows_bind (follows_recvExact 1) fun _ ↦ ?_
    exact follows_ite (follows_pure ()) (follows_ite follows_failure ih)

theorem follows_readSocks4Request : Follows readSocks4Request socks4Grammar := by
  refine follows_bind (follows_recvExact 7) fun _ ↦ ?_
  refine follows_ite follows_failure ?_
  exact follows_bind (follows_drainUserId 256) fun _ ↦ follows_pure _

/-- The SOCKS4 reader sends nothing. -/
theorem receives_readSocks4Request : Receives readSocks4Request := by
  have hdrain : ∀ left, Receives (drainUserId left) := by
    intro left
    induction left with
    | zero => exact receives_pure ()
    | succ left ih =>
      refine receives_bind (receives_recvExact 1) fun _ ↦ ?_
      exact receives_ite (receives_pure ()) (receives_ite receives_failure ih)
  refine receives_bind (receives_recvExact 7) fun _ ↦ ?_
  refine receives_ite receives_failure ?_
  exact receives_bind (hdrain 256) fun _ ↦ receives_pure _

/-! ### What the grammars accept -/

theorem toUInt8_length_toNat {bytes : Bytes} (h : bytes.length ≤ 255) :
    bytes.length.toUInt8.toNat = bytes.length := by
  rw [Nat.toUInt8_eq, UInt8.toNat_ofNat']
  omega

theorem ofNat_length_of_eq_toNat {bytes : Bytes} {count : UInt8}
    (h : bytes.length = count.toNat) : bytes.length.toUInt8 = count := by
  rw [h, Nat.toUInt8_eq, UInt8.ofNat_toNat]

theorem socks5HostGrammar_eq_some_iff {atyp : UInt8} {stream host rest : Bytes} :
    socks5HostGrammar atyp stream = some (host, rest) ↔
      ∃ address : Socks5Address, atyp :: stream = address.encode ++ rest ∧ address.host = host := by
  constructor
  · intro h
    unfold socks5HostGrammar at h
    split_ifs at h with h4 hdomain h6
    · obtain ⟨address, _, htake, hpure⟩ := grammar_bind_eq_some_iff.mp h
      obtain ⟨hlen, rfl⟩ := takeBytes_eq_some_iff.mp htake
      obtain ⟨rfl, rfl⟩ := Prod.mk.inj (grammar_pure_eq_some_iff.mp hpure)
      exact ⟨.ipv4 ⟨address, hlen⟩, by rw [h4]; rfl, rfl⟩
    · obtain ⟨len, _, htake, hname⟩ := grammar_bind_eq_some_iff.mp h
      obtain ⟨hlen, rfl⟩ := takeBytes_eq_some_iff.mp htake
      obtain ⟨hpos, hname⟩ := grammar_guarded_eq_some_iff.mp hname
      obtain ⟨hcount, rfl⟩ := takeBytes_eq_some_iff.mp hname
      obtain ⟨count, rfl⟩ := List.length_eq_one_iff.mp hlen
      change host.length = count.toNat at hcount
      change ¬ count = 0 at hpos
      have hbound := count.toNat_lt
      have hne : count.toNat ≠ 0 := fun hzero ↦ hpos (UInt8.toNat.inj hzero)
      refine ⟨.domain ⟨host, by omega, by omega⟩, ?_, rfl⟩
      simp only [Socks5Address.encode, ofNat_length_of_eq_toNat hcount, hdomain, List.cons_append,
        List.nil_append]
    · obtain ⟨address, _, htake, hpure⟩ := grammar_bind_eq_some_iff.mp h
      obtain ⟨hlen, rfl⟩ := takeBytes_eq_some_iff.mp htake
      obtain ⟨rfl, rfl⟩ := Prod.mk.inj (grammar_pure_eq_some_iff.mp hpure)
      exact ⟨.ipv6 ⟨address, hlen⟩, by rw [h6]; rfl, rfl⟩
    · exact absurd h (fun h ↦ nomatch h)
  · rintro ⟨address | name | address, hstream, rfl⟩
    · obtain ⟨rfl, rfl⟩ := List.cons.inj hstream
      exact grammar_bind_eq_some_iff.mpr
        ⟨address, rest, takeBytes_eq_some_iff.mpr ⟨address.property, rfl⟩, rfl⟩
    · obtain ⟨rfl, rfl⟩ := List.cons.inj hstream
      obtain ⟨name, hpos, hle⟩ := name
      have hcount := toUInt8_length_toNat hle
      refine grammar_bind_eq_some_iff.mpr
        ⟨[name.length.toUInt8], name ++ rest, takeBytes_eq_some_iff.mpr ⟨rfl, rfl⟩, ?_⟩
      refine grammar_guarded_eq_some_iff.mpr ⟨fun hzero ↦ ?_, ?_⟩
      · change name.length.toUInt8 = 0 at hzero
        rw [hzero] at hcount
        change 0 = name.length at hcount
        omega
      · exact takeBytes_eq_some_iff.mpr ⟨hcount.symm, rfl⟩
    · obtain ⟨rfl, rfl⟩ := List.cons.inj hstream
      exact grammar_bind_eq_some_iff.mpr
        ⟨address, rest, takeBytes_eq_some_iff.mpr ⟨address.property, rfl⟩, rfl⟩

/-- A stream the grammar accepts starts with the encoding of a request. -/
theorem socks5Grammar_sound {stream rest : Bytes} {target : ForwardTarget}
    (h : socks5Grammar stream = some (target, rest)) :
    ∃ request : Socks5Connect, stream = request.encode ++ rest ∧ request.target = target := by
  rw [socks5Grammar, grammar_bind_eq_some_iff] at h
  obtain ⟨nmethods, _, hn, h⟩ := h
  obtain ⟨hnlen, rfl⟩ := takeBytes_eq_some_iff.mp hn
  obtain ⟨count, rfl⟩ := List.length_eq_one_iff.mp hnlen
  rw [grammar_bind_eq_some_iff] at h
  obtain ⟨methods, _, hm, h⟩ := h
  obtain ⟨hcount, rfl⟩ := takeBytes_eq_some_iff.mp hm
  change methods.length = count.toNat at hcount
  rw [pure_bind, grammar_guarded_eq_some_iff] at h
  obtain ⟨hauth, h⟩ := h
  rw [grammar_bind_eq_some_iff] at h
  obtain ⟨req, _, hr, h⟩ := h
  obtain ⟨hreq, rfl⟩ := takeBytes_eq_some_iff.mp hr
  rw [grammar_guarded_eq_some_iff] at h
  obtain ⟨hversion, h⟩ := h
  rw [grammar_bind_eq_some_iff] at h
  obtain ⟨host, _, hhost, h⟩ := h
  obtain ⟨address, haddress, rfl⟩ := socks5HostGrammar_eq_some_iff.mp hhost
  rw [grammar_bind_eq_some_iff] at h
  obtain ⟨portBytes, _, hp, h⟩ := h
  obtain ⟨hport, rfl⟩ := takeBytes_eq_some_iff.mp hp
  obtain ⟨rfl, rfl⟩ := Prod.mk.inj (grammar_pure_eq_some_iff.mp h)
  obtain ⟨high, low, rfl⟩ := List.length_eq_two.mp hport
  match req, hreq, hversion, haddress with
  | [version, command, reserved, atyp], _, hversion, haddress =>
    change ¬ (version ≠ socksVersion5 ∨ command ≠ socksConnect) at hversion
    rw [not_or, not_not, not_not] at hversion
    obtain ⟨rfl, rfl⟩ := hversion
    have hbound := count.toNat_lt
    refine ⟨⟨methods, by omega, by simpa using hauth, reserved, address, high, low⟩, ?_, ?_⟩
    · change atyp :: _ = _ at haddress
      simp only [Socks5Connect.encode, ofNat_length_of_eq_toNat hcount, List.cons_append,
        List.nil_append, List.append_assoc, haddress]
    · simp only [Socks5Connect.target, ← portOf_eq_bigEndian]
      rfl

/-- The grammar accepts the encoding of every request. -/
theorem socks5Grammar_encode (request : Socks5Connect) (rest : Bytes) :
    socks5Grammar (request.encode ++ rest) = some (request.target, rest) := by
  obtain ⟨methods, hlen, hauth, reserved, address, high, low⟩ := request
  obtain ⟨atyp, tail, hencode⟩ : ∃ atyp tail, address.encode = atyp :: tail := by
    cases address <;> exact ⟨_, _, rfl⟩
  have hhost : socks5HostGrammar atyp (tail ++ [high, low] ++ rest) =
      some (address.host, [high, low] ++ rest) :=
    socks5HostGrammar_eq_some_iff.mpr ⟨address, by simp [hencode], rfl⟩
  refine grammar_bind_eq_some_iff.mpr ⟨[methods.length.toUInt8], methods ++
    ([socksVersion5, socksConnect, reserved, atyp] ++ (tail ++ [high, low] ++ rest)),
    takeBytes_eq_some_iff.mpr ⟨rfl, by simp [Socks5Connect.encode, hencode]⟩, ?_⟩
  refine grammar_bind_eq_some_iff.mpr ⟨methods, _,
    takeBytes_eq_some_iff.mpr ⟨(toUInt8_length_toNat hlen).symm, rfl⟩, ?_⟩
  refine grammar_guarded_eq_some_iff.mpr ⟨by simpa using hauth, ?_⟩
  refine grammar_bind_eq_some_iff.mpr ⟨_, _, takeBytes_eq_some_iff.mpr ⟨rfl, rfl⟩, ?_⟩
  refine grammar_guarded_eq_some_iff.mpr ⟨by simp [byteAt], ?_⟩
  refine grammar_bind_eq_some_iff.mpr ⟨_, _, hhost, ?_⟩
  refine grammar_bind_eq_some_iff.mpr
    ⟨[high, low], rest, takeBytes_eq_some_iff.mpr ⟨rfl, rfl⟩, ?_⟩
  exact grammar_pure_eq_some_iff.mpr (by
    simp only [Socks5Connect.target, ← portOf_eq_bigEndian]
    rfl)

theorem socks5Grammar_eq_some_iff {stream rest : Bytes} {target : ForwardTarget} :
    socks5Grammar stream = some (target, rest) ↔
      ∃ request : Socks5Connect, stream = request.encode ++ rest ∧ request.target = target := by
  constructor
  · exact socks5Grammar_sound
  · rintro ⟨request, rfl, rfl⟩
    exact socks5Grammar_encode request rest

/-- With `left` rounds, draining succeeds exactly on fewer than `left` bytes
other than NUL followed by a NUL. -/
theorem userIdGrammar_eq_some_iff (left : ℕ) : ∀ {stream rest : Bytes},
    userIdGrammar (left + 1) stream = some ((), rest) ↔
      ∃ userId : Bytes, userId.length ≤ left ∧ 0 ∉ userId ∧ stream = userId ++ [0] ++ rest := by
  induction left with
  | zero =>
    intro stream rest
    rw [userIdGrammar, grammar_bind_eq_some_iff]
    constructor
    · rintro ⟨byte, after, htake, h⟩
      obtain ⟨hlen, rfl⟩ := takeBytes_eq_some_iff.mp htake
      obtain ⟨byte, rfl⟩ := List.length_eq_one_iff.mp hlen
      split_ifs at h with hzero hlast
      · obtain ⟨-, rfl⟩ := Prod.mk.inj (grammar_pure_eq_some_iff.mp h)
        change byte = 0 at hzero
        exact ⟨[], by simp, by simp, by simp [hzero]⟩
      · exact nomatch h
      · exact absurd rfl hlast
    · rintro ⟨userId, hlen, -, rfl⟩
      obtain rfl : userId = [] := List.length_eq_zero_iff.mp (by omega)
      exact ⟨[0], rest, takeBytes_eq_some_iff.mpr ⟨rfl, rfl⟩, rfl⟩
  | succ left ih =>
    intro stream rest
    rw [userIdGrammar, grammar_bind_eq_some_iff]
    constructor
    · rintro ⟨byte, after, htake, h⟩
      obtain ⟨hlen, rfl⟩ := takeBytes_eq_some_iff.mp htake
      obtain ⟨byte, rfl⟩ := List.length_eq_one_iff.mp hlen
      split_ifs at h with hzero hlast
      · obtain ⟨-, rfl⟩ := Prod.mk.inj (grammar_pure_eq_some_iff.mp h)
        change byte = 0 at hzero
        exact ⟨[], by simp, by simp, by simp [hzero]⟩
      · exact nomatch h
      · obtain ⟨userId, hid, hnul, rfl⟩ := ih.mp h
        change ¬ byte = 0 at hzero
        exact ⟨byte :: userId, by simpa using hid,
          by simpa [hnul] using fun hbyte ↦ hzero hbyte.symm, by simp⟩
    · rintro ⟨_ | ⟨byte, userId⟩, hlen, hnul, rfl⟩
      · exact ⟨[0], rest, takeBytes_eq_some_iff.mpr ⟨rfl, rfl⟩, rfl⟩
      · have hbyte : ¬ byteAt [byte] 0 = 0 := fun hzero ↦ hnul (by
          change byte = 0 at hzero
          simp [hzero])
        refine ⟨[byte], userId ++ [0] ++ rest, takeBytes_eq_some_iff.mpr ⟨rfl, by simp⟩, ?_⟩
        rw [if_neg hbyte, if_neg (Nat.succ_ne_zero left)]
        exact ih.mpr ⟨userId, by simpa using hlen, fun h ↦ hnul (List.mem_cons_of_mem _ h), rfl⟩

theorem socks4Grammar_eq_some_iff {stream rest : Bytes} {target : ForwardTarget} :
    socks4Grammar stream = some (target, rest) ↔
      ∃ request : Socks4Connect, stream = request.encode ++ rest ∧ request.target = target := by
  constructor
  · intro h
    rw [socks4Grammar, grammar_bind_eq_some_iff] at h
    obtain ⟨head, _, hhead, h⟩ := h
    obtain ⟨hlen, rfl⟩ := takeBytes_eq_some_iff.mp hhead
    rw [grammar_guarded_eq_some_iff] at h
    obtain ⟨hcommand, h⟩ := h
    rw [grammar_bind_eq_some_iff] at h
    obtain ⟨⟨⟩, _, hid, h⟩ := h
    obtain ⟨userId, hidLength, hnul, rfl⟩ := (userIdGrammar_eq_some_iff 255).mp hid
    obtain ⟨rfl, rfl⟩ := Prod.mk.inj (grammar_pure_eq_some_iff.mp h)
    match head, hlen, hcommand with
    | [command, high, low, a, b, c, d], _, hcommand =>
      change ¬ command ≠ socksConnect at hcommand
      rw [not_not] at hcommand
      refine ⟨⟨high, low, [a, b, c, d], rfl, userId, hidLength, hnul⟩, ?_, ?_⟩
      · simp [Socks4Connect.encode, hcommand]
      · simp only [Socks4Connect.target, ← portOf_eq_bigEndian]
        rfl
  · rintro ⟨⟨high, low, address, haddress, userId, hidLength, hnul⟩, rfl, rfl⟩
    refine grammar_bind_eq_some_iff.mpr ⟨[socksConnect, high, low] ++ address,
      userId ++ [0] ++ rest,
      takeBytes_eq_some_iff.mpr ⟨by simp [haddress], by simp [Socks4Connect.encode]⟩, ?_⟩
    refine grammar_guarded_eq_some_iff.mpr ⟨by simp [byteAt], ?_⟩
    refine grammar_bind_eq_some_iff.mpr ⟨(), rest,
      (userIdGrammar_eq_some_iff 255).mpr ⟨userId, hidLength, hnul, rfl⟩, ?_⟩
    exact grammar_pure_eq_some_iff.mpr (by
      simp only [Socks4Connect.target, ← portOf_eq_bigEndian]
      rfl)

/-! ### The readers on a socket -/

/-- A reader that follows a grammar accepts exactly the grammar's encodings and
leaves what comes after them. -/
theorem reads_iff_of_follows {Request : Type} {encode : Request → Bytes}
    {target : Request → ForwardTarget} {program : SocketM ForwardTarget}
    {grammar : StreamGrammar ForwardTarget} (hfollows : Follows program grammar)
    (haccepts : ∀ {stream rest : Bytes} {value : ForwardTarget},
      grammar stream = some (value, rest) ↔
        ∃ request, stream = encode request ++ rest ∧ target request = value)
    (socket : StreamSocket) (hwritable : socket.writable = true) :
    (∀ request rest, socket.incoming = encode request ++ rest →
        (program socket).1 = some (target request) ∧ (program socket).2.incoming = rest) ∧
      ((∀ request rest, socket.incoming ≠ encode request ++ rest) →
        (program socket).1 = none) := by
  have hrun := (hfollows socket hwritable).2
  constructor
  · intro request rest hincoming
    rw [haccepts.mpr ⟨request, hincoming, rfl⟩] at hrun
    exact hrun
  · intro hother
    rcases hgrammar : grammar socket.incoming with _ | ⟨value, rest⟩
    · rw [hgrammar] at hrun
      exact hrun
    · obtain ⟨request, hincoming, -⟩ := haccepts.mp hgrammar
      exact absurd hincoming (hother request rest)

/-- For every stream and every way it is split into pieces, each reader returns
a target exactly when the stream starts with a CONNECT request of its protocol:
then the target is the encoded host and port and exactly the request's bytes are
consumed; every other stream yields no target. Assumes: replies can be sent. -/
theorem readSocksRequests_exact (socket : StreamSocket) (hwritable : socket.writable = true) :
    ((∀ (request : Socks5Connect) (rest : Bytes), socket.incoming = request.encode ++ rest →
        (readSocks5Request socket).1 = some request.target ∧
          (readSocks5Request socket).2.incoming = rest) ∧
      ((∀ (request : Socks5Connect) (rest : Bytes), socket.incoming ≠ request.encode ++ rest) →
        (readSocks5Request socket).1 = none)) ∧
    ((∀ (request : Socks4Connect) (rest : Bytes), socket.incoming = request.encode ++ rest →
        (readSocks4Request socket).1 = some request.target ∧
          (readSocks4Request socket).2.incoming = rest) ∧
      ((∀ (request : Socks4Connect) (rest : Bytes), socket.incoming ≠ request.encode ++ rest) →
        (readSocks4Request socket).1 = none)) :=
  ⟨reads_iff_of_follows follows_readSocks5Request socks5Grammar_eq_some_iff socket hwritable,
    reads_iff_of_follows follows_readSocks4Request socks4Grammar_eq_some_iff socket hwritable⟩

/-- A SOCKS5 client that offers two methods, asks for port 80 of a domain name
and pipelines three payload bytes, all received one and two bytes at a time. -/
def pipelinedSocks5 : StreamSocket where
  incoming := [2, 0, 2, 5, 1, 0, 3, 2, 0x68, 0x69, 0, 80, 7, 8, 9]
  arrivals := [1, 2, 1, 1, 2, 1, 1]

theorem readSocksRequests_exact_pipelined :
    (readSocks5Request pipelinedSocks5).1 = some (.tcp { host := ascii "hi", port := 80 }) ∧
      (readSocks5Request pipelinedSocks5).2.incoming = [7, 8, 9] :=
  (readSocksRequests_exact pipelinedSocks5 rfl).1.1
    { methods := [0, 2], methods_length := by decide, offersNoAuth := by decide, reserved := 0
      address := .domain ⟨ascii "hi", by decide⟩, portHigh := 0, portLow := 80 } [7, 8, 9]
    (by decide)

end LibSshpp.Forwarding
