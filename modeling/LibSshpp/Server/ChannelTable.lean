import LibSshpp.Foundation.Error
import LibSshpp.Program.StateTriple
import Mathlib.Algebra.Group.Nat.Defs
import Mathlib.Logic.Function.Basic

/-!
The channels of a callback-style server session. `HandlerBridge::channels_` owns a
channel and its handler from the open request on; the close callback only notes
the channel, and `reap_closed_channels` erases it once the poll has returned. An
accepted subsystem request takes the channel's callbacks away, the close callback
with them.
-/

set_option autoImplicit false
set_option relaxedAutoImplicit false

namespace LibSshpp.Server.ChannelTable

open Program

variable {η : Type}

/-- The value of an `ssh_channel`. -/
abbrev NativeChannel := ℕ

/-- What a method of a handler does. -/
inductive MethodResult (α : Type)
  | returns (value : α)
  | throwsException

/-- A `ChannelState`. `serial` is no member: it is the number of the channel among those
that were opened, and tells apart channels that had the same address. -/
structure ChannelState (η : Type) where
  handler : η
  serial : ℕ

/-- What libssh keeps of a channel: the callbacks installed on it, by their `userdata`,
whether the client's close has been processed, and whether its owner has freed it. -/
structure LibsshChannel (η : Type) where
  serial : ℕ
  callbacks : Option (ChannelState η) := none
  closed : Bool := false
  freed : Bool := false

/-- What happens to channels and when. -/
inductive Occurrence (η : Type)
  | pollBegins
  | pollReturns
  | opened (serial : ℕ) (handler : η)
  | subsystemAccepted (serial : ℕ)
  | closed (serial : ℕ)
  | released (serial : ℕ) (handler : η)

/-- The session with its bridge and libssh's channels. -/
structure Session (η : Type) where
  privateEvent : Bool := false
  channels : NativeChannel → Option (ChannelState η) := fun _ ↦ none
  pendingRemovals : List NativeChannel := []
  libssh : NativeChannel → Option (LibsshChannel η) := fun _ ↦ none
  opened : ℕ := 0
  log : List (Occurrence η) := []

namespace Session

def record (session : Session η) (occurrence : Occurrence η) : Session η :=
  { session with log := session.log ++ [occurrence] }

def putChannel (session : Session η) (raw : NativeChannel) (state : Option (ChannelState η)) :
    Session η :=
  { session with channels := Function.update session.channels raw state }

def putLibssh (session : Session η) (raw : NativeChannel) (channel : Option (LibsshChannel η)) :
    Session η :=
  { session with libssh := Function.update session.libssh raw channel }

/-! ### libssh -/

/-- `ssh_channel_new`: a channel at an address that is not in use, or null. -/
def sshChannelNew (session : Session η) (address : NativeChannel) :
    Option NativeChannel × Session η :=
  match session.libssh address with
  | none =>
    (some address, { session.putLibssh address (some { serial := session.opened }) with
      opened := session.opened + 1 })
  | some _ => (none, session)

def sshSetChannelCallbacks (session : Session η) (raw : NativeChannel) (state : ChannelState η) :
    Session η :=
  match session.libssh raw with
  | some channel => session.putLibssh raw (some { channel with callbacks := some state })
  | none => session

def sshRemoveChannelCallbacks (session : Session η) (raw : NativeChannel) : Session η :=
  match session.libssh raw with
  | some channel => session.putLibssh raw (some { channel with callbacks := none })
  | none => session

/-- `ssh_channel_free`: a channel that the client has closed is gone, another one goes
with the client's close. -/
def sshChannelFree (session : Session η) (raw : NativeChannel) : Session η :=
  match session.libssh raw with
  | some channel =>
    if channel.closed then session.putLibssh raw none
    else session.putLibssh raw (some { channel with callbacks := none, freed := true })
  | none => session

/-- The rest of libssh's work on the client's close, after the callbacks. -/
def closeProcessed (session : Session η) (raw : NativeChannel) : Session η :=
  match session.libssh raw with
  | some channel =>
    (session.record (.closed channel.serial)).putLibssh raw
      (if channel.freed then none else some { channel with closed := true })
  | none => session

/-! ### The table -/

/-- `channels_.erase(raw)`; the `ChannelState` goes, with it the handler and the channel. -/
def eraseChannel (session : Session η) (raw : NativeChannel) : Session η :=
  match session.channels raw with
  | some state =>
    ((session.putChannel raw none).record (.released state.serial state.handler)).sshChannelFree raw
  | none => session

def reapClosedChannels (session : Session η) : Session η :=
  { session.pendingRemovals.foldl eraseChannel session with pendingRemovals := [] }

/-- `register_channel`; `channels_[raw]` drops what was there. -/
def registerChannel (session : Session η) (raw : NativeChannel) (serial : ℕ) (handler : η) :
    Session η :=
  let state : ChannelState η := { handler, serial }
  (((session.sshSetChannelCallbacks raw state).eraseChannel raw).putChannel raw
    (some state)).record (.opened serial handler)

/-- `channel_open_session_cb`. -/
def channelOpenSessionCb (session : Session η) (answer : MethodResult (Option η))
    (address : NativeChannel) : Option NativeChannel × Session η :=
  match answer with
  | .returns (some handler) =>
    match session.sshChannelNew address with
    | (some raw, after) => (some raw, after.registerChannel raw session.opened handler)
    | (none, after) => (none, after)
  | .returns none => (none, session)
  | .throwsException => (none, session)

end Session

/-! ### The callbacks of a channel -/

/-- A callback of a channel, with what the handler's method does. -/
inductive ChannelCallback
  | data (consumed : MethodResult ℕ)
  | eof (result : MethodResult Unit)
  | close (result : MethodResult Unit)
  | signal (result : MethodResult Unit)
  | ptyRequest (accepted : MethodResult Bool)
  | ptyWindowChange (accepted : MethodResult Bool)
  | shellRequest (accepted : MethodResult Bool)
  | execRequest (accepted : MethodResult Bool)
  | envRequest (accepted : MethodResult Bool)
  | subsystemRequest (accepted : MethodResult Bool)
  | x11Request (result : MethodResult Unit)

/-- The answer of the trampolines for requests. -/
def requestAnswer (refusal : ℤ) : MethodResult Bool → ℤ
  | .returns true => 0
  | .returns false => refusal
  | .throwsException => refusal

def channelPtyRequestCb : MethodResult Bool → ℤ := requestAnswer (-1)

def channelPtyWindowChangeCb : MethodResult Bool → ℤ := requestAnswer (-1)

def channelShellRequestCb : MethodResult Bool → ℤ := requestAnswer 1

def channelExecRequestCb : MethodResult Bool → ℤ := requestAnswer 1

def channelEnvRequestCb : MethodResult Bool → ℤ := requestAnswer 1

/-- `channel_data_cb`, whose count is cast to `int`. -/
def channelDataCb : MethodResult ℕ → ℤ
  | .returns consumed => Int.bmod consumed (2 ^ 32)
  | .throwsException => 0

namespace Session

/-- `channel_close_cb`: whatever `on_close` does, the channel is noted. -/
def channelCloseCb (session : Session η) (raw : NativeChannel) (_ : MethodResult Unit) :
    Session η :=
  { session with pendingRemovals := session.pendingRemovals ++ [raw] }

/-- `channel_subsystem_request_cb`. -/
def channelSubsystemRequestCb (session : Session η) (raw : NativeChannel)
    (state : ChannelState η) : MethodResult Bool → ℤ × Session η
  | .returns true =>
    (0, (session.record (.subsystemAccepted state.serial)).sshRemoveChannelCallbacks raw)
  | .returns false => (1, session)
  | .throwsException => (1, session)

/-- The trampoline of a callback; those without a result return `none`. -/
def channelCallback (session : Session η) (raw : NativeChannel) (state : ChannelState η) :
    ChannelCallback → Option ℤ × Session η
  | .data consumed => (some (channelDataCb consumed), session)
  | .eof _ => (none, session)
  | .close result => (none, session.channelCloseCb raw result)
  | .signal _ => (none, session)
  | .ptyRequest accepted => (some (channelPtyRequestCb accepted), session)
  | .ptyWindowChange accepted => (some (channelPtyWindowChangeCb accepted), session)
  | .shellRequest accepted => (some (channelShellRequestCb accepted), session)
  | .execRequest accepted => (some (channelExecRequestCb accepted), session)
  | .envRequest accepted => (some (channelEnvRequestCb accepted), session)
  | .subsystemRequest accepted =>
    let (answer, after) := session.channelSubsystemRequestCb raw state accepted
    (some answer, after)
  | .x11Request _ => (none, session)

/-- libssh invokes a callback of a channel, if the channel has its callbacks. -/
def invoke (session : Session η) (raw : NativeChannel) (callback : ChannelCallback) :
    Option ℤ × Session η :=
  match (session.libssh raw).bind (·.callbacks) with
  | some state => session.channelCallback raw state callback
  | none => (none, session)

end Session

/-- A message of the client as libssh handles it: a request for a new channel, with the
handler's answer and the address libssh may use, or a message on a channel. -/
inductive LibsshEvent (η : Type)
  | openSession (answer : MethodResult (Option η)) (address : NativeChannel)
  | message (raw : NativeChannel) (callback : ChannelCallback)

def LibsshEvent.handle (event : LibsshEvent η) (session : Session η) : Session η :=
  match event with
  | .openSession answer address => (session.channelOpenSessionCb answer address).2
  | .message raw (.close result) => (session.invoke raw (.close result)).2.closeProcessed raw
  | .message raw callback => (session.invoke raw callback).2

def dispatch (event : LibsshEvent η) : StateM (Session η) Unit :=
  fun session ↦ ((), event.handle session)

/-- `Session::try_poll`: what attaching the session gives, what `ssh_event_dopoll`
dispatches and returns, and what other threads dispatch once the lock is free. -/
def tryPoll (attach : Result Unit) (dispatched : List (LibsshEvent η)) (polled : Result Unit)
    (later : List (LibsshEvent η)) : StateM (Session η) (Result Unit) := do
  if !(← get).privateEvent then
    if let .error info := attach then
      return .error info
    modify fun session ↦ { session with privateEvent := true }
  modify fun session ↦ session.record .pollBegins
  runAll dispatch dispatched
  modify fun session ↦ session.record .pollReturns
  runAll dispatch later
  modify Session.reapClosedChannels
  return polled

/-- What the program does with the session: it polls, or a thread that serves a
subsystem reads from its channel, which dispatches too. -/
inductive Call (η : Type)
  | poll (attach : Result Unit) (dispatched : List (LibsshEvent η)) (polled : Result Unit)
      (later : List (LibsshEvent η))
  | channelRead (dispatched : List (LibsshEvent η))

def call : Call η → StateM (Session η) Unit
  | .poll attach dispatched polled later => discard (tryPoll attach dispatched polled later)
  | .channelRead dispatched => runAll dispatch dispatched

/-! ### What the table should be -/

/-- A poll has begun and not returned. -/
def polling (log : List (Occurrence η)) : Bool :=
  log.foldl (fun running occurrence ↦
    match occurrence with
    | .pollBegins => true
    | .pollReturns => false
    | _ => running) false

/-- A channel is erased after its close, and in no poll. -/
structure Orderly (log : List (Occurrence η)) : Prop where
  closed : ∀ before after serial handler, log = before ++ .released serial handler :: after →
    .closed serial ∈ before
  outside : ∀ before after serial handler, log = before ++ .released serial handler :: after →
    polling before = false

/-- The table holds the channels that were opened and have not been closed, and the
handlers of the others have been released. -/
structure Matches (session : Session η) : Prop where
  table : ∀ serial, (∃ raw state, session.channels raw = some state ∧ state.serial = serial) ↔
    (∃ handler, .opened serial handler ∈ session.log) ∧ .closed serial ∉ session.log
  released : ∀ serial handler, .opened serial handler ∈ session.log →
    .closed serial ∈ session.log → .released serial handler ∈ session.log
  orderly : Orderly session.log

/-- Whenever the closed channels are reaped in the run, the table is what it should be. -/
def TableKept (calls : List (Call η)) : Prop :=
  ∀ served, served <+: calls → Matches (stateAfter call served {}).reapClosedChannels

/-- libssh processed the close of a channel on which a subsystem request had been
accepted. -/
def ClosedAfterSubsystem (log : List (Occurrence η)) (serial : ℕ) : Prop :=
  ∃ before after, log = before ++ .closed serial :: after ∧ .subsystemAccepted serial ∈ before ∧
    .closed serial ∉ before

/-! ### The log -/

/-- The channel an occurrence is about. -/
def Occurrence.channel : Occurrence η → Option ℕ
  | .pollBegins => none
  | .pollReturns => none
  | .opened serial _ => some serial
  | .subsystemAccepted serial => some serial
  | .closed serial => some serial
  | .released serial _ => some serial

/-- A place in a list that one more element was put at the end of. -/
theorem concat_eq_split {α : Type} {list before after : List α} {last found : α} :
    list ++ [last] = before ++ found :: after ↔
      (after = [] ∧ list = before ∧ last = found) ∨
        ∃ rest, after = rest ++ [last] ∧ list = before ++ found :: rest := by
  constructor
  · intro h
    rcases List.eq_nil_or_concat after with rfl | ⟨rest, other, rfl⟩
    · obtain ⟨hlist, hlast⟩ := List.append_inj' h rfl
      exact .inl ⟨rfl, hlist, List.head_eq_of_cons_eq hlast⟩
    · rw [List.concat_eq_append, ← List.cons_append, ← List.append_assoc] at h
      obtain ⟨hlist, hlast⟩ := List.append_inj' h rfl
      have hother : last = other := List.head_eq_of_cons_eq hlast
      exact .inr ⟨rest, by rw [hother, List.concat_eq_append], hlist⟩
  · rintro (⟨rfl, rfl, rfl⟩ | ⟨rest, rfl, rfl⟩)
    · rfl
    · simp

theorem polling_concat (log : List (Occurrence η)) (occurrence : Occurrence η) :
    polling (log ++ [occurrence]) =
      match occurrence with
      | .pollBegins => true
      | .pollReturns => false
      | _ => polling log := by
  simp [polling]

theorem Orderly.concat {log : List (Occurrence η)} (h : Orderly log) {last : Occurrence η}
    (hlast : ∀ serial handler, last = .released serial handler →
      .closed serial ∈ log ∧ polling log = false) : Orderly (log ++ [last]) := by
  constructor
  · intro before after serial handler hsplit
    rcases concat_eq_split.mp hsplit with ⟨-, rfl, hfound⟩ | ⟨rest, -, hrest⟩
    · exact (hlast serial handler hfound).1
    · exact h.closed before rest serial handler hrest
  · intro before after serial handler hsplit
    rcases concat_eq_split.mp hsplit with ⟨-, rfl, hfound⟩ | ⟨rest, -, hrest⟩
    · exact (hlast serial handler hfound).2
    · exact h.outside before rest serial handler hrest

theorem Orderly.closed_of_released {log : List (Occurrence η)} (h : Orderly log) {serial : ℕ}
    {handler : η} (hreleased : .released serial handler ∈ log) : .closed serial ∈ log := by
  obtain ⟨before, after, rfl⟩ := List.append_of_mem hreleased
  exact List.mem_append_left _ (h.closed before after serial handler rfl)

namespace ClosedAfterSubsystem

variable {log : List (Occurrence η)} {serial : ℕ}

theorem mono {more : List (Occurrence η)} (h : ClosedAfterSubsystem log serial) :
    ClosedAfterSubsystem (log ++ more) serial := by
  obtain ⟨before, after, rfl, hbefore⟩ := h
  exact ⟨before, after ++ more, by simp, hbefore⟩

theorem closed_mem (h : ClosedAfterSubsystem log serial) : .closed serial ∈ log := by
  obtain ⟨before, after, rfl, -⟩ := h
  simp

theorem accepted_mem (h : ClosedAfterSubsystem log serial) : .subsystemAccepted serial ∈ log := by
  obtain ⟨before, after, rfl, haccepted, -⟩ := h
  exact List.mem_append_left _ haccepted

theorem concat_iff {last : Occurrence η} : ClosedAfterSubsystem (log ++ [last]) serial ↔
    ClosedAfterSubsystem log serial ∨
      (last = .closed serial ∧ .subsystemAccepted serial ∈ log ∧ .closed serial ∉ log) := by
  constructor
  · rintro ⟨before, after, hsplit, hbefore⟩
    rcases concat_eq_split.mp hsplit with ⟨-, rfl, hlast⟩ | ⟨rest, -, hrest⟩
    · exact .inr ⟨hlast, hbefore⟩
    · exact .inl ⟨before, rest, hrest, hbefore⟩
  · rintro (h | ⟨rfl, hlog⟩)
    · exact h.mono
    · exact ⟨log, [], rfl, hlog⟩

/-- Only the close of the channel itself can make the difference. -/
theorem concat_of_ne {last : Occurrence η} (h : last ≠ .closed serial) :
    ClosedAfterSubsystem (log ++ [last]) serial ↔ ClosedAfterSubsystem log serial := by
  rw [concat_iff, or_iff_left (fun hlast ↦ h hlast.1)]

end ClosedAfterSubsystem

/-! ### The invariant -/

/-- What the table and libssh have at one address; `due` says whether the bridge has
noted the address for the next reaping. -/
def AgreeAt (log : List (Occurrence η)) (due : Prop) :
    Option (ChannelState η) → Option (LibsshChannel η) → Prop
  | none, none => ¬ due
  | some state, some channel =>
    channel.serial = state.serial ∧ channel.freed = false ∧
      .opened state.serial state.handler ∈ log ∧
      (channel.closed = true ↔ .closed state.serial ∈ log) ∧
      (channel.callbacks = none ↔ .subsystemAccepted state.serial ∈ log) ∧
      (∀ installed, channel.callbacks = some installed → installed = state) ∧
      (due ↔ .closed state.serial ∈ log ∧ ¬ ClosedAfterSubsystem log state.serial)
  | _, _ => False

/-- The invariant of the session, with the addresses whose channels the next reaping
erases. -/
structure Consistent (due : NativeChannel → Prop) (session : Session η) : Prop where
  agree : ∀ raw, AgreeAt session.log (due raw) (session.channels raw) (session.libssh raw)
  distinct : ∀ raw other state found, session.channels raw = some state →
    session.channels other = some found → state.serial = found.serial → raw = other
  bounded : ∀ occurrence ∈ session.log, ∀ serial, occurrence.channel = some serial →
    serial < session.opened
  accounted : ∀ serial handler, .opened serial handler ∈ session.log →
    (∃ raw, session.channels raw = some { handler, serial }) ∨
      .released serial handler ∈ session.log
  kept : ∀ serial, ClosedAfterSubsystem session.log serial →
    ∃ raw state, session.channels raw = some state ∧ state.serial = serial
  orderly : Orderly session.log

/-- The invariant between the calls of the bridge. -/
def Sound (session : Session η) : Prop :=
  Consistent (· ∈ session.pendingRemovals) session

/-- What happens to another channel leaves an address as it is. -/
theorem AgreeAt.concat {log : List (Occurrence η)} {due : Prop}
    {state : Option (ChannelState η)} {channel : Option (LibsshChannel η)}
    (h : AgreeAt log due state channel) {last : Occurrence η}
    (hlast : ∀ found, state = some found → last.channel ≠ some found.serial) :
    AgreeAt (log ++ [last]) due state channel := by
  match state, channel, h with
  | none, none, h => exact h
  | some found, some channel, h =>
    obtain ⟨hserial, hfreed, hopened, hclosed, haccepted, hinstalled, hdue⟩ := h
    have hother := hlast found rfl
    have hnotClosed : last ≠ .closed found.serial := fun h ↦ hother (by rw [h]; rfl)
    have hnotAccepted : last ≠ .subsystemAccepted found.serial := fun h ↦ hother (by rw [h]; rfl)
    refine ⟨hserial, hfreed, List.mem_append_left _ hopened, ?_, ?_, hinstalled, ?_⟩
    · rw [hclosed, List.mem_append, List.mem_singleton, or_iff_left hnotClosed.symm]
    · rw [haccepted, List.mem_append, List.mem_singleton, or_iff_left hnotAccepted.symm]
    · rw [hdue, List.mem_append, List.mem_singleton, or_iff_left hnotClosed.symm,
        ClosedAfterSubsystem.concat_of_ne hnotClosed]

namespace Consistent

variable {due : NativeChannel → Prop} {session : Session η}

/-- The two sides have a channel at the same addresses. -/
theorem libssh_of_channels (h : Consistent due session) {raw : NativeChannel}
    {state : ChannelState η} (hstate : session.channels raw = some state) :
    ∃ channel, session.libssh raw = some channel ∧
      AgreeAt session.log (due raw) (some state) (some channel) := by
  have hagree := h.agree raw
  rw [hstate] at hagree
  match hchannel : session.libssh raw with
  | some channel =>
    rw [hchannel] at hagree
    exact ⟨channel, rfl, hagree⟩
  | none =>
    rw [hchannel] at hagree
    exact hagree.elim

theorem channels_of_libssh (h : Consistent due session) {raw : NativeChannel}
    {channel : LibsshChannel η} (hchannel : session.libssh raw = some channel) :
    ∃ state, session.channels raw = some state ∧
      AgreeAt session.log (due raw) (some state) (some channel) := by
  have hagree := h.agree raw
  rw [hchannel] at hagree
  match hstate : session.channels raw with
  | some state =>
    rw [hstate] at hagree
    exact ⟨state, rfl, hagree⟩
  | none =>
    rw [hstate] at hagree
    exact hagree.elim

theorem free_of_libssh (h : Consistent due session) {raw : NativeChannel}
    (hchannel : session.libssh raw = none) : session.channels raw = none ∧ ¬ due raw := by
  have hagree := h.agree raw
  rw [hchannel] at hagree
  match hstate : session.channels raw with
  | some state =>
    rw [hstate] at hagree
    exact hagree.elim
  | none =>
    rw [hstate] at hagree
    exact ⟨rfl, hagree⟩

/-- A channel that is in the table has a smaller number than the next one. -/
theorem serial_lt (h : Consistent due session) {raw : NativeChannel} {state : ChannelState η}
    (hstate : session.channels raw = some state) : state.serial < session.opened := by
  obtain ⟨channel, -, -, -, hopened, -⟩ := h.libssh_of_channels hstate
  exact h.bounded _ hopened _ rfl

theorem not_mem_of_next (h : Consistent due session) {occurrence : Occurrence η}
    (hnext : occurrence.channel = some session.opened) : occurrence ∉ session.log :=
  fun hmem ↦ Nat.lt_irrefl _ (h.bounded occurrence hmem _ hnext)

/-- The invariant is about `due`, not about the list that holds the addresses. -/
theorem withPending (h : Consistent due session) (pending : List NativeChannel) :
    Consistent due { session with pendingRemovals := pending } :=
  ⟨h.agree, h.distinct, h.bounded, h.accounted, h.kept, h.orderly⟩

theorem withPrivateEvent (h : Consistent due session) :
    Consistent due { session with privateEvent := true } :=
  ⟨h.agree, h.distinct, h.bounded, h.accounted, h.kept, h.orderly⟩

/-- The beginning and the end of a poll. -/
theorem record_poll (h : Consistent due session) {last : Occurrence η}
    (hlast : last.channel = none) : Consistent due (session.record last) := by
  have hnotReleased : ∀ serial handler, last ≠ .released serial handler :=
    fun serial handler heq ↦ by rw [heq] at hlast; exact nomatch hlast
  have hnotOpened : ∀ serial handler, last ≠ .opened serial handler :=
    fun serial handler heq ↦ by rw [heq] at hlast; exact nomatch hlast
  have hnotClosed : ∀ serial, last ≠ .closed serial :=
    fun serial heq ↦ by rw [heq] at hlast; exact nomatch hlast
  refine ⟨fun raw ↦ ?_, h.distinct, fun occurrence hmem serial hserial ↦ ?_,
    fun serial handler hopened ↦ ?_, fun serial hkept ↦ ?_, ?_⟩
  · exact (h.agree raw).concat fun found _ ↦ by rw [hlast]; exact fun h ↦ nomatch h
  · rcases List.mem_append.mp hmem with hmem | hmem
    · exact h.bounded occurrence hmem serial hserial
    · rw [List.mem_singleton.mp hmem, hlast] at hserial
      exact nomatch hserial
  · have hmem := (List.mem_append.mp hopened).resolve_right fun hsame ↦
      hnotOpened serial handler (List.mem_singleton.mp hsame).symm
    exact (h.accounted serial handler hmem).imp id (List.mem_append_left _)
  · exact h.kept serial ((ClosedAfterSubsystem.concat_of_ne (hnotClosed serial)).mp hkept)
  · exact h.orderly.concat fun serial handler heq ↦ absurd heq (hnotReleased serial handler)

/-- A message on a channel of the table: libssh's side of the channel changes, and
what was noted about it. -/
theorem record_message {due' : NativeChannel → Prop} (h : Consistent due session)
    {raw : NativeChannel} {state : ChannelState η} {channel : LibsshChannel η}
    (last : Occurrence η) (hstate : session.channels raw = some state)
    (hlast : last.channel = some state.serial)
    (hnotOpened : ∀ serial handler, last ≠ .opened serial handler)
    (hnotReleased : ∀ serial handler, last ≠ .released serial handler)
    (hdue : ∀ other, other ≠ raw → (due' other ↔ due other))
    (hat : AgreeAt (session.log ++ [last]) (due' raw) (some state) (some channel)) :
    Consistent due' ((session.record last).putLibssh raw (some channel)) := by
  refine ⟨fun other ↦ ?_, h.distinct, fun occurrence hmem serial hserial ↦ ?_,
    fun serial handler hopened ↦ ?_, fun serial hkept ↦ ?_, ?_⟩
  · change AgreeAt (session.log ++ [last]) (due' other) (session.channels other)
      (Function.update session.libssh raw (some channel) other)
    by_cases hother : other = raw
    · rw [hother, Function.update_self, hstate]
      exact hat
    · rw [Function.update_of_ne hother, hdue other hother]
      refine (h.agree other).concat fun found hfound heq ↦ ?_
      rw [hlast, Option.some.injEq] at heq
      exact hother (h.distinct other raw found state hfound hstate heq.symm)
  · rcases List.mem_append.mp hmem with hmem | hmem
    · exact h.bounded occurrence hmem serial hserial
    · rw [List.mem_singleton.mp hmem, hlast, Option.some.injEq] at hserial
      exact hserial ▸ h.serial_lt hstate
  · have hmem := (List.mem_append.mp hopened).resolve_right fun hsame ↦
      hnotOpened serial handler (List.mem_singleton.mp hsame).symm
    exact (h.accounted serial handler hmem).imp id (List.mem_append_left _)
  · rcases ClosedAfterSubsystem.concat_iff.mp hkept with hkept | ⟨hclosed, -⟩
    · exact h.kept serial hkept
    · rw [hclosed] at hlast
      exact ⟨raw, state, hstate, (Option.some.inj hlast).symm⟩
  · exact h.orderly.concat fun serial handler heq ↦ absurd heq (hnotReleased serial handler)

/-- A channel at an address that was not in use. -/
theorem addChannel (h : Consistent due session) {address : NativeChannel}
    (hlibssh : session.libssh address = none) (handler : η) :
    Consistent due { session with
      channels := Function.update session.channels address
        (some { handler, serial := session.opened })
      libssh := Function.update session.libssh address
        (some { serial := session.opened, callbacks := some { handler, serial := session.opened } })
      opened := session.opened + 1
      log := session.log ++ [.opened session.opened handler] } := by
  obtain ⟨hfree, hnotDue⟩ := h.free_of_libssh hlibssh
  have hnext : ∀ raw found, session.channels raw = some found → found.serial ≠ session.opened :=
    fun raw found hfound ↦ Nat.ne_of_lt (h.serial_lt hfound)
  refine ⟨fun raw ↦ ?_, fun raw other found found' hfound hfound' hserial ↦ ?_,
    fun occurrence hmem serial hserial ↦ ?_, fun serial other hopened ↦ ?_,
    fun serial hkept ↦ ?_, ?_⟩
  · by_cases hraw : raw = address
    · subst hraw
      have hclosed : .closed session.opened ∉ session.log := h.not_mem_of_next rfl
      have haccepted : .subsystemAccepted session.opened ∉ session.log := h.not_mem_of_next rfl
      simp [AgreeAt, hclosed, haccepted, hnotDue]
    · simp only [Function.update_of_ne hraw]
      refine (h.agree raw).concat fun found hfound heq ↦ ?_
      exact hnext raw found hfound (Option.some.inj heq).symm
  · by_cases hraw : raw = address <;> by_cases hother : other = address
    · rw [hraw, hother]
    · simp only [hraw, Function.update_self, Function.update_of_ne hother] at hfound hfound'
      rw [← Option.some.inj hfound] at hserial
      exact absurd hserial.symm (hnext other found' hfound')
    · simp only [hother, Function.update_self, Function.update_of_ne hraw] at hfound hfound'
      rw [← Option.some.inj hfound'] at hserial
      exact absurd hserial (hnext raw found hfound)
    · simp only [Function.update_of_ne hraw, Function.update_of_ne hother] at hfound hfound'
      exact h.distinct raw other found found' hfound hfound' hserial
  · rcases List.mem_append.mp hmem with hmem | hmem
    · exact Nat.lt_succ_of_lt (h.bounded occurrence hmem serial hserial)
    · rw [List.mem_singleton.mp hmem] at hserial
      exact Option.some.inj hserial ▸ Nat.lt_succ_self _
  · rcases List.mem_append.mp hopened with hmem | hmem
    · rcases h.accounted serial other hmem with ⟨raw, hraw⟩ | hreleased
      · refine .inl ⟨raw, ?_⟩
        have hne : raw ≠ address := fun heq ↦ by rw [heq, hfree] at hraw; exact nomatch hraw
        exact (Function.update_of_ne hne _ _).trans hraw
      · exact .inr (List.mem_append_left _ hreleased)
    · cases List.mem_singleton.mp hmem
      exact .inl ⟨address, Function.update_self _ _ _⟩
  · have hbefore : ClosedAfterSubsystem session.log serial :=
      (ClosedAfterSubsystem.concat_iff.mp hkept).resolve_right fun hlast ↦ nomatch hlast.1
    obtain ⟨raw, state, hraw, hserial⟩ := h.kept serial hbefore
    have hne : raw ≠ address := fun heq ↦ by rw [heq, hfree] at hraw; exact nomatch hraw
    exact ⟨raw, state, (Function.update_of_ne hne _ _).trans hraw, hserial⟩
  · exact h.orderly.concat fun serial handler heq ↦ nomatch heq

end Consistent

/-! ### What the callbacks keep -/

theorem Sound.channelOpenSessionCb {session : Session η} (h : Sound session)
    (answer : MethodResult (Option η)) (address : NativeChannel) :
    Sound (session.channelOpenSessionCb answer address).2 := by
  match answer with
  | .throwsException => exact h
  | .returns none => exact h
  | .returns (some handler) =>
    match hlibssh : session.libssh address with
    | some channel => simpa [Session.channelOpenSessionCb, Session.sshChannelNew, hlibssh] using h
    | none =>
      have hfree := (h.free_of_libssh hlibssh).1
      have hafter : (session.channelOpenSessionCb (.returns (some handler)) address).2 =
          { session with
            channels := Function.update session.channels address
              (some { handler, serial := session.opened })
            libssh := Function.update session.libssh address (some {
              serial := session.opened
              callbacks := some { handler, serial := session.opened } })
            opened := session.opened + 1
            log := session.log ++ [.opened session.opened handler] } := by
        simp [Session.channelOpenSessionCb, Session.sshChannelNew, hlibssh,
          Session.registerChannel, Session.sshSetChannelCallbacks, Session.putLibssh,
          Session.eraseChannel, Session.putChannel, Session.record, hfree]
      rw [hafter]
      exact h.addChannel hlibssh handler

theorem Sound.subsystemRequest {session : Session η} (h : Sound session) (raw : NativeChannel)
    (accepted : MethodResult Bool) :
    Sound (session.invoke raw (.subsystemRequest accepted)).2 := by
  rw [Session.invoke]
  match hlibssh : session.libssh raw with
  | none => exact h
  | some channel =>
    obtain ⟨state, hstate, hserial, hfreed, hopened, hclosed, haccepted, hinstalled, hdue⟩ :=
      h.channels_of_libssh hlibssh
    match hcallbacks : channel.callbacks, accepted with
    | none, accepted => simpa [hcallbacks] using h
    | some installed, .throwsException =>
      simpa [hcallbacks, Session.channelCallback, Session.channelSubsystemRequestCb] using h
    | some installed, .returns false =>
      simpa [hcallbacks, Session.channelCallback, Session.channelSubsystemRequestCb] using h
    | some installed, .returns true =>
      have hsame := hinstalled installed hcallbacks
      have hafter : (session.channelCallback raw state (.subsystemRequest (.returns true))).2 =
          (session.record (.subsystemAccepted state.serial)).putLibssh raw
            (some { channel with callbacks := none }) := by
        simp [Session.channelCallback, Session.channelSubsystemRequestCb,
          Session.sshRemoveChannelCallbacks, Session.record, hlibssh]
      simp only [Option.bind_some, hcallbacks, hsame]
      rw [hafter]
      refine h.record_message (.subsystemAccepted state.serial) hstate rfl (by simp) (by simp)
        (fun _ _ ↦ Iff.rfl) ⟨hserial, hfreed, List.mem_append_left _ hopened, ?_, by simp,
          by simp, ?_⟩
      · simp [hclosed]
      · simpa [Session.record, Session.putLibssh, ClosedAfterSubsystem.concat_iff] using hdue

/-- The client's close: the address is noted if the callbacks are still there, and they
are unless a subsystem request was accepted. -/
theorem Sound.close {session : Session η} (h : Sound session) (raw : NativeChannel)
    (result : MethodResult Unit) :
    Sound ((session.invoke raw (.close result)).2.closeProcessed raw) := by
  match hlibssh : session.libssh raw with
  | none => simpa [Session.invoke, Session.closeProcessed, hlibssh] using h
  | some channel =>
    obtain ⟨state, hstate, hserial, hfreed, hopened, hclosed, haccepted, hinstalled, hdue⟩ :=
      h.channels_of_libssh hlibssh
    match hcallbacks : channel.callbacks with
    | none =>
      have hafter : (session.invoke raw (.close result)).2.closeProcessed raw =
          (session.record (.closed state.serial)).putLibssh raw
            (some { channel with closed := true }) := by
        simp [Session.invoke, Session.closeProcessed, hlibssh, hcallbacks, hfreed, hserial]
      rw [hafter]
      have hbefore := haccepted.mp hcallbacks
      refine h.record_message (.closed state.serial) hstate rfl (by simp) (by simp)
        (fun _ _ ↦ Iff.rfl) ⟨hserial, hfreed, List.mem_append_left _ hopened, by simp, ?_,
          hinstalled, ?_⟩
      · simp [haccepted]
      · change raw ∈ session.pendingRemovals ↔ _
        rw [hdue, ClosedAfterSubsystem.concat_iff]
        by_cases hmem : .closed state.serial ∈ session.log <;> simp [hmem, hbefore]
    | some installed =>
      have hafter : (session.invoke raw (.close result)).2.closeProcessed raw =
          ({ session with pendingRemovals := session.pendingRemovals ++ [raw] }.record
            (.closed state.serial)).putLibssh raw (some { channel with closed := true }) := by
        simp [Session.invoke, Session.closeProcessed, Session.channelCallback,
          Session.channelCloseCb, hlibssh, hcallbacks, hfreed, hserial]
      rw [hafter]
      have hbefore : .subsystemAccepted state.serial ∉ session.log := fun hmem ↦ by
        rw [haccepted.mpr hmem] at hcallbacks
        exact nomatch hcallbacks
      refine (h.withPending _).record_message (.closed state.serial) hstate rfl (by simp) (by simp)
        (fun other hother ↦ ?_) ⟨hserial, hfreed, List.mem_append_left _ hopened, by simp, ?_,
          hinstalled, ?_⟩
      · simp [Session.record, Session.putLibssh, hother]
      · simp [haccepted]
      · rw [ClosedAfterSubsystem.concat_iff]
        have hnot : ¬ ClosedAfterSubsystem session.log state.serial :=
          fun h ↦ hbefore h.accepted_mem
        simp [Session.record, Session.putLibssh, hbefore, hnot]

theorem Sound.handle {session : Session η} (h : Sound session) (event : LibsshEvent η) :
    Sound (event.handle session) := by
  match event with
  | .openSession answer address => exact h.channelOpenSessionCb answer address
  | .message raw (.close result) => exact h.close raw result
  | .message raw (.subsystemRequest accepted) => exact h.subsystemRequest raw accepted
  | .message raw (.data _) | .message raw (.eof _) | .message raw (.signal _)
  | .message raw (.ptyRequest _) | .message raw (.ptyWindowChange _)
  | .message raw (.shellRequest _) | .message raw (.execRequest _)
  | .message raw (.envRequest _) | .message raw (.x11Request _) =>
    simp only [LibsshEvent.handle, Session.invoke]
    split <;> exact h

/-! ### Reaping -/

namespace Consistent

variable {due : NativeChannel → Prop} {session : Session η}

theorem congr {due' : NativeChannel → Prop} (h : Consistent due session)
    (hdue : ∀ raw, due raw ↔ due' raw) : Consistent due' session := by
  have hsame : due = due' := funext fun raw ↦ propext (hdue raw)
  exact hsame ▸ h

/-- A channel that is due has been closed, so libssh lets go of it too. -/
theorem eraseChannel_eq (h : Consistent due session) {raw : NativeChannel}
    {state : ChannelState η} (hstate : session.channels raw = some state) (hraw : due raw) :
    session.eraseChannel raw = { session with
      channels := Function.update session.channels raw none
      libssh := Function.update session.libssh raw none
      log := session.log ++ [.released state.serial state.handler] } := by
  obtain ⟨channel, hlibssh, -, -, -, hclosed, -, -, hdue⟩ := h.libssh_of_channels hstate
  have hgone : channel.closed = true := hclosed.mpr (hdue.mp hraw).1
  simp [Session.eraseChannel, Session.putChannel, Session.record, Session.sshChannelFree,
    Session.putLibssh, hstate, hlibssh, hgone]

theorem eraseChannel (h : Consistent due session) (hpolling : polling session.log = false)
    {raw : NativeChannel} {state : ChannelState η} (hstate : session.channels raw = some state)
    (hraw : due raw) :
    Consistent (fun other ↦ other ≠ raw ∧ due other) (session.eraseChannel raw) := by
  obtain ⟨channel, -, -, -, -, -, -, -, hdue⟩ := h.libssh_of_channels hstate
  obtain ⟨hclosed, hnot⟩ := hdue.mp hraw
  rw [h.eraseChannel_eq hstate hraw]
  refine ⟨fun other ↦ ?_, fun first other found found' hfound hfound' hserial ↦ ?_,
    fun occurrence hmem serial hserial ↦ ?_, fun serial handler hopened ↦ ?_,
    fun serial hkept ↦ ?_, ?_⟩
  · by_cases hother : other = raw
    · simp [hother, AgreeAt]
    · simp only [Function.update_of_ne hother, ne_eq, hother, not_false_eq_true, true_and]
      refine (h.agree other).concat fun found hfound heq ↦ ?_
      have hserial : state.serial = found.serial := Option.some.inj heq
      exact hother (h.distinct raw other state found hstate hfound hserial).symm
  · have hfirst : first ≠ raw := fun heq ↦ by simp [heq] at hfound
    have hother : other ≠ raw := fun heq ↦ by simp [heq] at hfound'
    simp only [Function.update_of_ne hfirst, Function.update_of_ne hother] at hfound hfound'
    exact h.distinct first other found found' hfound hfound' hserial
  · rcases List.mem_append.mp hmem with hmem | hmem
    · exact h.bounded occurrence hmem serial hserial
    · rw [List.mem_singleton.mp hmem] at hserial
      exact Option.some.inj hserial ▸ h.serial_lt hstate
  · have hmem : .opened serial handler ∈ session.log := by simpa using hopened
    rcases h.accounted serial handler hmem with ⟨other, hfound⟩ | hreleased
    · by_cases hother : other = raw
      · rw [hother, hstate, Option.some.injEq] at hfound
        exact .inr (by simp [hfound])
      · exact .inl ⟨other, (Function.update_of_ne hother _ _).trans hfound⟩
    · exact .inr (List.mem_append_left _ hreleased)
  · have hbefore : ClosedAfterSubsystem session.log serial :=
      (ClosedAfterSubsystem.concat_iff.mp hkept).resolve_right fun hlast ↦ nomatch hlast.1
    obtain ⟨other, found, hfound, hserial⟩ := h.kept serial hbefore
    have hother : other ≠ raw := by
      rintro rfl
      rw [hstate, Option.some.injEq] at hfound
      rw [← hserial, ← hfound] at hbefore
      exact hnot hbefore
    exact ⟨other, found, (Function.update_of_ne hother _ _).trans hfound, hserial⟩
  · refine h.orderly.concat fun serial handler heq ↦ ?_
    cases heq
    exact ⟨hclosed, hpolling⟩

/-- The loop of `reap_closed_channels`: an address that was noted twice is erased
once. -/
theorem eraseAll {pending : List NativeChannel} (h : Consistent due session)
    (hdue : ∀ raw, due raw ↔ raw ∈ pending ∧ session.channels raw ≠ none)
    (hpolling : polling session.log = false) :
    Consistent (fun _ ↦ False) (pending.foldl Session.eraseChannel session) := by
  induction pending generalizing session due with
  | nil => exact h.congr fun raw ↦ by simp [hdue]
  | cons raw pending ih =>
    match hstate : session.channels raw with
    | none =>
      have hsame : session.eraseChannel raw = session := by simp [Session.eraseChannel, hstate]
      rw [List.foldl_cons, hsame]
      refine ih h (fun other ↦ ?_) hpolling
      rw [hdue, List.mem_cons]
      refine and_congr_left fun hfound ↦ or_iff_right ?_
      rintro rfl
      exact hfound hstate
    | some state =>
      have hraw : due raw := (hdue raw).mpr ⟨List.mem_cons_self, by rw [hstate]; simp⟩
      have hafter := h.eraseChannel_eq hstate hraw
      refine ih (h.eraseChannel hpolling hstate hraw) (fun other ↦ ?_) ?_
      · rw [hafter]
        by_cases hother : other = raw
        · simp [hother]
        · simp [hother, hdue]
      · rw [hafter, polling_concat]
        exact hpolling

/-- With nothing left to erase, the table is what it should be unless a channel was
closed after a subsystem request. -/
theorem matches_iff (h : Consistent (fun _ ↦ False) session) :
    Matches session ↔ ∀ serial, ¬ ClosedAfterSubsystem session.log serial := by
  constructor
  · intro hmatches serial hkept
    exact ((hmatches.table serial).mp (h.kept serial hkept)).2 hkept.closed_mem
  · intro hnone
    have hlive : ∀ raw state, session.channels raw = some state →
        .closed state.serial ∉ session.log := by
      intro raw state hstate hclosed
      obtain ⟨channel, -, -, -, -, -, -, -, hdue⟩ := h.libssh_of_channels hstate
      exact hdue.mpr ⟨hclosed, hnone state.serial⟩
    refine ⟨fun serial ↦ ⟨?_, ?_⟩, fun serial handler hopened hclosed ↦ ?_, h.orderly⟩
    · rintro ⟨raw, state, hstate, rfl⟩
      obtain ⟨channel, -, -, -, hopened, -⟩ := h.libssh_of_channels hstate
      exact ⟨⟨state.handler, hopened⟩, hlive raw state hstate⟩
    · intro ⟨⟨handler, hopened⟩, hnotClosed⟩
      rcases h.accounted serial handler hopened with ⟨raw, hraw⟩ | hreleased
      · exact ⟨raw, _, hraw, rfl⟩
      · exact absurd (h.orderly.closed_of_released hreleased) hnotClosed
    · refine (h.accounted serial handler hopened).resolve_left fun ⟨raw, hraw⟩ ↦ ?_
      exact hlive raw _ hraw hclosed

end Consistent

theorem Sound.reapClosedChannels {session : Session η} (h : Sound session)
    (hpolling : polling session.log = false) :
    Consistent (fun _ ↦ False) session.reapClosedChannels := by
  refine (Consistent.eraseAll h (fun raw ↦ ?_) hpolling).withPending []
  refine ⟨fun hraw ↦ ⟨hraw, fun hnone ↦ ?_⟩, fun hraw ↦ hraw.1⟩
  have hagree := h.agree raw
  rw [hnone] at hagree
  match hlibssh : session.libssh raw with
  | none =>
    rw [hlibssh] at hagree
    exact hagree hraw
  | some channel =>
    rw [hlibssh] at hagree
    exact hagree

/-! ### Runs -/

/-- The log has grown by what happened to channels. -/
def Follows (log after : List (Occurrence η)) : Prop :=
  ∃ more, after = log ++ more ∧ ∀ occurrence ∈ more, occurrence.channel ≠ none

namespace Follows

variable {log after : List (Occurrence η)}

theorem refl (log : List (Occurrence η)) : Follows log log := ⟨[], by simp, by simp⟩

theorem trans {last : List (Occurrence η)} (h : Follows log after) (hlast : Follows after last) :
    Follows log last := by
  obtain ⟨more, rfl, hmore⟩ := h
  obtain ⟨rest, rfl, hrest⟩ := hlast
  refine ⟨more ++ rest, by rw [List.append_assoc], fun occurrence hmem ↦ ?_⟩
  exact (List.mem_append.mp hmem).elim (hmore occurrence) (hrest occurrence)

theorem polling_eq (h : Follows log after) : polling after = polling log := by
  obtain ⟨more, rfl, hmore⟩ := h
  induction more generalizing log with
  | nil => rw [List.append_nil]
  | cons occurrence more ih =>
    rw [← List.singleton_append, ← List.append_assoc,
      ih fun other hother ↦ hmore other (List.mem_cons_of_mem _ hother), polling_concat]
    have hchannel := hmore occurrence List.mem_cons_self
    cases occurrence with
    | pollBegins => exact absurd rfl hchannel
    | pollReturns => exact absurd rfl hchannel
    | opened => rfl
    | subsystemAccepted => rfl
    | closed => rfl
    | released => rfl

end Follows

theorem Session.log_eraseChannel (session : Session η) (raw : NativeChannel) :
    (session.eraseChannel raw).log = session.log ∨
      ∃ serial handler, (session.eraseChannel raw).log =
        session.log ++ [.released serial handler] := by
  rw [Session.eraseChannel]
  split
  · rename_i state _
    refine .inr ⟨state.serial, state.handler, ?_⟩
    rw [Session.sshChannelFree]
    split
    · split_ifs <;> rfl
    · rfl
  · exact .inl rfl

theorem Session.follows_eraseChannel (session : Session η) (raw : NativeChannel) :
    Follows session.log (session.eraseChannel raw).log := by
  rcases session.log_eraseChannel raw with hlog | ⟨serial, handler, hlog⟩
  · exact hlog ▸ Follows.refl _
  · exact ⟨[.released serial handler], hlog, by simp [Occurrence.channel]⟩

/-- Reaping closes nothing. -/
theorem Session.closedAfterSubsystem_reaped (session : Session η) (serial : ℕ) :
    ClosedAfterSubsystem session.reapClosedChannels.log serial ↔
      ClosedAfterSubsystem session.log serial := by
  have hall : ∀ (pending : List NativeChannel) (before : Session η),
      ClosedAfterSubsystem (pending.foldl Session.eraseChannel before).log serial ↔
        ClosedAfterSubsystem before.log serial := by
    intro pending
    induction pending with
    | nil => exact fun before ↦ Iff.rfl
    | cons raw pending ih =>
      intro before
      refine (ih (before.eraseChannel raw)).trans ?_
      rcases before.log_eraseChannel raw with hlog | ⟨other, handler, hlog⟩
      · rw [hlog]
      · rw [hlog, ClosedAfterSubsystem.concat_of_ne (by simp)]
  exact hall session.pendingRemovals session

theorem Session.follows_reapClosedChannels (session : Session η) :
    Follows session.log session.reapClosedChannels.log := by
  have hall : ∀ (pending : List NativeChannel) (before : Session η),
      Follows before.log (pending.foldl Session.eraseChannel before).log := by
    intro pending
    induction pending with
    | nil => exact fun before ↦ Follows.refl before.log
    | cons raw pending ih =>
      exact fun before ↦ (before.follows_eraseChannel raw).trans (ih (before.eraseChannel raw))
  exact hall session.pendingRemovals session

theorem Session.log_sshSetChannelCallbacks (session : Session η) (raw : NativeChannel)
    (state : ChannelState η) : (session.sshSetChannelCallbacks raw state).log = session.log := by
  rw [Session.sshSetChannelCallbacks]
  split <;> rfl

theorem Session.log_sshRemoveChannelCallbacks (session : Session η) (raw : NativeChannel) :
    (session.sshRemoveChannelCallbacks raw).log = session.log := by
  rw [Session.sshRemoveChannelCallbacks]
  split <;> rfl

theorem Session.follows_registerChannel (session : Session η) (raw : NativeChannel) (serial : ℕ)
    (handler : η) : Follows session.log (session.registerChannel raw serial handler).log := by
  let installed := session.sshSetChannelCallbacks raw { handler, serial }
  have herase := installed.follows_eraseChannel raw
  rw [session.log_sshSetChannelCallbacks] at herase
  exact herase.trans ⟨[.opened serial handler], rfl, by simp [Occurrence.channel]⟩

theorem Session.follows_invoke (session : Session η) (raw : NativeChannel)
    (callback : ChannelCallback) : Follows session.log (session.invoke raw callback).2.log := by
  rw [Session.invoke]
  split
  · rename_i state _
    match callback with
    | .subsystemRequest (.returns true) =>
      refine ⟨[.subsystemAccepted state.serial], ?_, by simp [Occurrence.channel]⟩
      exact Session.log_sshRemoveChannelCallbacks _ raw
    | .subsystemRequest (.returns false) | .subsystemRequest .throwsException
    | .data _ | .eof _ | .close _ | .signal _ | .ptyRequest _ | .ptyWindowChange _
    | .shellRequest _ | .execRequest _ | .envRequest _ | .x11Request _ => exact Follows.refl _
  · exact Follows.refl _

theorem Session.follows_closeProcessed (session : Session η) (raw : NativeChannel) :
    Follows session.log (session.closeProcessed raw).log := by
  rw [Session.closeProcessed]
  split
  · rename_i channel _
    exact ⟨[.closed channel.serial], rfl, by simp [Occurrence.channel]⟩
  · exact Follows.refl _

theorem LibsshEvent.follows_handle (event : LibsshEvent η) (session : Session η) :
    Follows session.log (event.handle session).log := by
  match event with
  | .message raw (.close result) =>
    exact (session.follows_invoke raw (.close result)).trans
      (Session.follows_closeProcessed _ raw)
  | .message raw (.data _) | .message raw (.eof _) | .message raw (.signal _)
  | .message raw (.ptyRequest _) | .message raw (.ptyWindowChange _)
  | .message raw (.shellRequest _) | .message raw (.execRequest _)
  | .message raw (.envRequest _) | .message raw (.x11Request _)
  | .message raw (.subsystemRequest _) => exact session.follows_invoke raw _
  | .openSession .throwsException _ | .openSession (.returns none) _ => exact Follows.refl _
  | .openSession (.returns (some handler)) address =>
    simp only [LibsshEvent.handle, Session.channelOpenSessionCb, Session.sshChannelNew]
    cases session.libssh address with
    | some channel => exact Follows.refl _
    | none => exact Session.follows_registerChannel _ address session.opened handler

/-- What libssh dispatches in one go. -/
theorem sound_dispatched {session : Session η} (h : Sound session) (events : List (LibsshEvent η)) :
    Sound (stateAfter dispatch events session) ∧
      Follows session.log (stateAfter dispatch events session).log := by
  have hkeeps : ∀ event, Keeps (fun after : Session η ↦
      Sound after ∧ Follows session.log after.log) (dispatch event) := fun event after hafter ↦
    ⟨hafter.1.handle event, hafter.2.trans (event.follows_handle after)⟩
  exact invariant_of_keeps hkeeps events ⟨h, Follows.refl _⟩

/-- A poll that fails to attach does nothing; another one dispatches and then reaps. -/
theorem poll_cases (session : Session η) (attach : Result Unit)
    (dispatched : List (LibsshEvent η)) (polled : Result Unit) (later : List (LibsshEvent η)) :
    (call (.poll attach dispatched polled later) session).2 = session ∨
      (call (.poll attach dispatched polled later) session).2 =
        (stateAfter dispatch later ((stateAfter dispatch dispatched
          ({ session with privateEvent := true }.record .pollBegins)).record
            .pollReturns)).reapClosedChannels := by
  obtain ⟨privateEvent, channels, pendingRemovals, libssh, opened, log⟩ := session
  cases privateEvent with
  | true => exact .inr rfl
  | false =>
    cases attach with
    | error info => exact .inl rfl
    | ok _ => exact .inr rfl

theorem Follows.isPrefix {log after : List (Occurrence η)} (h : Follows log after) :
    log <+: after := by
  obtain ⟨more, rfl, -⟩ := h
  exact List.prefix_append log more

/-- A call keeps the invariant, returns from its poll, and adds to the log. -/
theorem sound_call {session : Session η} (h : Sound session)
    (hpolling : polling session.log = false) (made : Call η) :
    Sound (call made session).2 ∧ polling (call made session).2.log = false ∧
      session.log <+: (call made session).2.log := by
  match made with
  | .channelRead dispatched =>
    obtain ⟨hsound, hfollows⟩ := sound_dispatched h dispatched
    exact ⟨hsound, hfollows.polling_eq.trans hpolling, hfollows.isPrefix⟩
  | .poll attach dispatched polled later =>
    rcases poll_cases session attach dispatched polled later with hsame | hpolled
    · rw [hsame]
      exact ⟨h, hpolling, List.prefix_refl _⟩
    · rw [hpolled]
      let begun := { session with privateEvent := true }.record .pollBegins
      have hbegun : Sound begun := h.withPrivateEvent.record_poll rfl
      obtain ⟨hreturning, hduring⟩ := sound_dispatched hbegun dispatched
      let returned := (stateAfter dispatch dispatched begun).record .pollReturns
      have hreturned : Sound returned := hreturning.record_poll rfl
      obtain ⟨hlater, hafterwards⟩ := sound_dispatched hreturned later
      have hfree : polling (stateAfter dispatch later returned).log = false :=
        hafterwards.polling_eq.trans (polling_concat _ _)
      have hreap := (stateAfter dispatch later returned).follows_reapClosedChannels
      refine ⟨(hlater.reapClosedChannels hfree).congr fun raw ↦ ?_,
        hreap.polling_eq.trans hfree, ?_⟩
      · exact iff_of_false id List.not_mem_nil
      · have hstart : session.log <+: begun.log := List.prefix_append _ _
        have hend : (stateAfter dispatch dispatched begun).log <+: returned.log :=
          List.prefix_append _ _
        exact hstart.trans (hduring.isPrefix.trans (hend.trans
          (hafterwards.isPrefix.trans hreap.isPrefix)))

theorem sound_stateAfter (calls : List (Call η)) {session : Session η} (h : Sound session)
    (hpolling : polling session.log = false) :
    Sound (stateAfter call calls session) ∧
      polling (stateAfter call calls session).log = false ∧
        session.log <+: (stateAfter call calls session).log := by
  have hkeeps : ∀ made, Keeps (fun after : Session η ↦ Sound after ∧ polling after.log = false ∧
      session.log <+: after.log) (call made) := by
    intro made after ⟨hafter, hfree, hlog⟩
    obtain ⟨hnext, hnextFree, hnextLog⟩ := sound_call hafter hfree made
    exact ⟨hnext, hnextFree, hlog.trans hnextLog⟩
  exact invariant_of_keeps hkeeps calls ⟨h, hpolling, List.prefix_refl _⟩

theorem sound_start : Sound ({} : Session η) where
  agree _ := List.not_mem_nil
  distinct _ _ _ _ h := nomatch h
  bounded _ h := nomatch h
  accounted _ _ h := nomatch h
  kept _ h := nomatch h.closed_mem
  orderly := ⟨fun _ _ _ _ h ↦ absurd h.symm (by simp), fun _ _ _ _ h ↦ absurd h.symm (by simp)⟩

theorem matches_reaped_iff {session : Session η} (h : Sound session)
    (hpolling : polling session.log = false) :
    Matches session.reapClosedChannels ↔
      ∀ serial, ¬ ClosedAfterSubsystem session.log serial := by
  rw [(h.reapClosedChannels hpolling).matches_iff]
  exact forall_congr' fun serial ↦ not_congr (session.closedAfterSubsystem_reaped serial)

/-- Over every run of polls, and of reads by other threads, with whatever libssh
dispatches in them: the table is right after each reaping exactly when no channel
was closed on which a subsystem request had been accepted. -/
theorem tableKept_iff (calls : List (Call η)) :
    TableKept calls ↔
      ∀ serial, ¬ ClosedAfterSubsystem (stateAfter call calls {}).log serial := by
  constructor
  · intro hkept
    obtain ⟨hsound, hpolling, -⟩ := sound_stateAfter calls (sound_start (η := η)) rfl
    exact (matches_reaped_iff hsound hpolling).mp (hkept calls (List.prefix_refl calls))
  · rintro hnone served ⟨rest, rfl⟩
    obtain ⟨hsound, hpolling, -⟩ := sound_stateAfter served (sound_start (η := η)) rfl
    obtain ⟨-, -, more, hmore⟩ := sound_stateAfter rest hsound hpolling
    refine (matches_reaped_iff hsound hpolling).mpr fun serial hclosed ↦ hnone serial ?_
    rw [stateAfter_append, ← hmore]
    exact hclosed.mono

/-- A subsystem is accepted on the first channel, and the client closes it. -/
def subsystemSession : List (Call Unit) :=
  [.poll (.ok ()) [.openSession (.returns (some ())) 1,
    .message 1 (.subsystemRequest (.returns true)), .message 1 (.close (.returns ()))] (.ok ()) []]

/-- The channel stays in the table. -/
theorem subsystemSession_keeps_channel : ¬ TableKept subsystemSession := by
  intro hkept
  have htable := (hkept subsystemSession (List.prefix_refl _)).table 0
  have hheld := htable.mp ⟨1, { handler := (), serial := 0 }, rfl, rfl⟩
  refine hheld.2 ?_
  show .closed 0 ∈ [Occurrence.pollBegins, .opened 0 (), .subsystemAccepted 0, .closed 0,
    .pollReturns]
  simp

end LibSshpp.Server.ChannelTable
