import LibSshpp.Forwarding.ServedConnection

/-!
The proxy serves every connection once: one reply in the client's version, a channel only for a
complete request that `allow` lets through, and the counters to match. The log of the calls tells
what has gone to the client and what libssh was asked for.
-/

set_option autoImplicit false
set_option relaxedAutoImplicit false

namespace LibSshpp.Forwarding

open Posix Client Program

/-! ### The request -/

/-- The client's stream begins with a complete request for the target, in a version that is
enabled. -/
def CompleteRequest (options : SocksOptions) (incoming : Bytes) (target : ForwardTarget) : Prop :=
  (∃ (request : Socks4Connect) (rest : Bytes),
      incoming = socksVersion4 :: (request.encode ++ rest) ∧ request.target = target ∧
        options.allowSocks4 = true) ∨
    ∃ (request : Socks5Connect) (rest : Bytes),
      incoming = socksVersion5 :: (request.encode ++ rest) ∧ request.target = target

/-- A target that the SOCKS4 reader returns was asked for, also on a socket that cannot be
written to. -/
theorem readSocks4Request_some {socket : StreamSocket} {target : ForwardTarget}
    (h : (readSocks4Request socket).1 = some target) :
    ∃ (request : Socks4Connect) (rest : Bytes),
      socket.incoming = request.encode ++ rest ∧ request.target = target := by
  have hwritable : (readSocks4Request { socket with writable := true }).1 = some target := by
    rw [receives_readSocks4Request socket true]
    exact h
  obtain ⟨haccepts, hrefuses⟩ := reads_iff_of_follows follows_readSocks4Request
    socks4Grammar_eq_some_iff { socket with writable := true } rfl
  by_contra hnone
  have hother : ∀ (request : Socks4Connect) (rest : Bytes),
      socket.incoming ≠ request.encode ++ rest := fun request rest hincoming ↦
    hnone ⟨request, rest, hincoming,
      Option.some.inj ((haccepts request rest hincoming).1.symm.trans hwritable)⟩
  exact nomatch (hrefuses hother).symm.trans hwritable

theorem readRequest_enabled {options : SocksOptions} {socket : StreamSocket}
    {target : ForwardTarget} (h : (readRequest options socket).1 = some (true, target)) :
    options.allowSocks4 = true := by
  rw [readRequest, socket_bind] at h
  cases hfirst : (recvExact 1 socket).1 with
  | none =>
    rw [hfirst] at h
    cases h
  | some firstByte =>
    rw [hfirst] at h
    simp only at h
    split_ifs at h with hrefused hother hfour
    · cases h
    · cases h
    · by_contra hdisabled
      exact hrefused ⟨hfour, by simpa using hdisabled⟩
    · rw [socket_bind] at h
      cases hread : (readSocks5Request (recvExact 1 socket).2).1 with
      | none =>
        rw [hread] at h
        cases h
      | some other =>
        rw [hread] at h
        cases congrArg Prod.fst (Option.some.inj h)

theorem readRequest_complete {options : SocksOptions} {socket : StreamSocket} {isSocks4 : Bool}
    {target : ForwardTarget} (h : (readRequest options socket).1 = some (isSocks4, target)) :
    CompleteRequest options socket.incoming target ∧
      socket.incoming.head? = some (if isSocks4 then socksVersion4 else socksVersion5) := by
  obtain ⟨version, rest, after, hincoming, hafter, -, hread⟩ := readRequest_first h
  rcases hread with ⟨rfl, rfl, hread⟩ | ⟨rfl, rfl, hread⟩
  · obtain ⟨request, tail, hencode, htarget⟩ := readSocks4Request_some hread
    rw [hincoming, ← hafter, hencode]
    exact ⟨.inl ⟨request, tail, rfl, htarget, readRequest_enabled h⟩, rfl⟩
  · have hwritable : after.writable = true := by
      by_contra hclosed
      rw [readSocks5Request_unwritable (by simpa using hclosed)] at hread
      exact nomatch hread
    obtain ⟨request, tail, hencode, htarget⟩ := (readSocks5Request_eq_some_iff hwritable).mp hread
    rw [hincoming, ← hafter, hencode]
    exact ⟨.inr ⟨request, tail, rfl, htarget⟩, rfl⟩

/-! ### What the log says -/

/-- Whether the call closes the client's descriptor. -/
def ServeCall.closes : ServeCall → Bool
  | .close => true
  | .pump .closeSocket => true
  | _ => false

/-- Whether the call opened a channel. -/
def ServeCall.opens : ServeCall → Bool
  | .openNative _ rc => rc = sshOk
  | _ => false

/-- Whether the call is a refusal by `allow`. -/
def ServeCall.refuses : ServeCall → Bool
  | .allow _ (some answer) => !answer
  | _ => false

/-- The call is part of opening a channel. -/
def ServeCall.opening : ServeCall → Bool
  | .openDirect _ | .openNative _ _ => true
  | _ => false

/-- The data of a `send` and how much of it was taken. -/
def ServeCall.sent : ServeCall → Option (Bytes × ℕ)
  | .send data taken => some (data, taken)
  | _ => none

/-- The call that libssh gets. -/
def ServeCall.native : ServeCall → Option NativeOpen
  | .openNative call _ => some call
  | _ => none

/-! The parts of the log. -/

section Parts

open Serving

theorem countP_map_of_false {α : Type} {call : α → ServeCall} {holds : ServeCall → Bool}
    (h : ∀ item, holds (call item) = false) (items : List α) :
    (items.map call).countP holds = 0 := by
  rw [List.countP_map]
  exact List.countP_eq_zero.mpr fun item _ ↦ by simp [h item]

theorem any_map_of_false {α : Type} {call : α → ServeCall} {holds : ServeCall → Bool}
    (h : ∀ item, holds (call item) = false) (items : List α) :
    (items.map call).any holds = false := by
  rw [List.any_map]
  exact List.any_eq_false.mpr fun item _ ↦ by simp [h item]

theorem filterMap_map_of_none {α β : Type} {call : α → ServeCall} {value : ServeCall → Option β}
    (h : ∀ item, value (call item) = none) (items : List α) :
    (items.map call).filterMap value = [] := by
  rw [List.filterMap_map]
  exact List.filterMap_eq_nil_iff.mpr fun item _ ↦ h item

variable (sends : List (Bytes × ℕ)) (options : SocksOptions) (answers : OpenAnswers)
  (target : ForwardTarget) (calls : List PumpCall)

@[simp] theorem countP_closes_sends : (sends.map sendCall).countP ServeCall.closes = 0 :=
  countP_map_of_false (fun _ ↦ rfl) sends

@[simp] theorem any_refuses_sends : (sends.map sendCall).any ServeCall.refuses = false :=
  any_map_of_false (fun _ ↦ rfl) sends

@[simp] theorem any_opening_sends : (sends.map sendCall).any ServeCall.opening = false :=
  any_map_of_false (fun _ ↦ rfl) sends

@[simp] theorem sent_sends : (sends.map sendCall).filterMap ServeCall.sent = sends := by
  rw [List.filterMap_map]
  exact List.filterMap_some

@[simp] theorem native_sends : (sends.map sendCall).filterMap ServeCall.native = [] :=
  filterMap_map_of_none (fun _ ↦ rfl) sends

@[simp] theorem countP_closes_askedOf :
    (askedOf options target).countP ServeCall.closes = 0 := by
  unfold askedOf
  split <;> rfl

@[simp] theorem any_opens_askedOf : (askedOf options target).any ServeCall.opens = false := by
  unfold askedOf
  split <;> rfl

@[simp] theorem any_refuses_askedOf :
    (askedOf options target).any ServeCall.refuses = false := by
  unfold askedOf
  split <;> rfl

@[simp] theorem any_opening_askedOf :
    (askedOf options target).any ServeCall.opening = false := by
  unfold askedOf
  split <;> rfl

@[simp] theorem sent_askedOf : (askedOf options target).filterMap ServeCall.sent = [] := by
  unfold askedOf
  split <;> rfl

@[simp] theorem countP_closes_openCalls :
    (openCalls answers target).countP ServeCall.closes = 0 := by
  rw [openCalls, List.countP_cons_of_neg Bool.false_ne_true]
  exact countP_map_of_false (fun _ ↦ rfl) _

@[simp] theorem any_refuses_openCalls :
    (openCalls answers target).any ServeCall.refuses = false := by
  rw [openCalls, List.any_cons]
  exact any_map_of_false (fun _ ↦ rfl) _

@[simp] theorem sent_openCalls : (openCalls answers target).filterMap ServeCall.sent = [] := by
  rw [openCalls, List.filterMap_cons_none rfl]
  exact filterMap_map_of_none (fun _ ↦ rfl) _

@[simp] theorem native_openCalls : (openCalls answers target).filterMap ServeCall.native =
    (openDirect answers target defaultOrigin).1 := by
  rw [openCalls, List.filterMap_cons_none rfl, List.filterMap_map]
  exact List.filterMap_some

/-- `open_direct` succeeds exactly if libssh was asked to open the channel and did. -/
@[simp] theorem any_opens_openCalls : (openCalls answers target).any ServeCall.opens =
    (openDirect answers target defaultOrigin).2.isOk := by
  have hforwarding (operation : String) (call : NativeOpen) :
      ((openForwarding operation call answers).1.map
          fun call ↦ ServeCall.openNative call answers.rc).any ServeCall.opens =
        (openForwarding operation call answers).2.isOk := by
    unfold openForwarding
    split_ifs with hcreated hrc
    · rfl
    · simp [ServeCall.opens, hrc, Except.isOk, Except.toBool]
    · simp [ServeCall.opens, not_not.mp hrc, Except.isOk, Except.toBool]
  rw [openCalls, List.any_cons]
  cases target with
  | tcp endpoint => exact hforwarding _ _
  | unix endpoint => exact hforwarding _ _

@[simp] theorem countP_closes_pump :
    (calls.map ServeCall.pump).countP ServeCall.closes = calls.count .closeSocket := by
  rw [List.countP_map, List.count]
  congr 1
  funext call
  cases call <;> rfl

@[simp] theorem any_refuses_pump : (calls.map ServeCall.pump).any ServeCall.refuses = false :=
  any_map_of_false (fun _ ↦ rfl) calls

@[simp] theorem any_opening_pump : (calls.map ServeCall.pump).any ServeCall.opening = false :=
  any_map_of_false (fun _ ↦ rfl) calls

@[simp] theorem sent_pump : (calls.map ServeCall.pump).filterMap ServeCall.sent = [] :=
  filterMap_map_of_none (fun _ ↦ rfl) calls

@[simp] theorem native_pump : (calls.map ServeCall.pump).filterMap ServeCall.native = [] :=
  filterMap_map_of_none (fun _ ↦ rfl) calls

end Parts

namespace Serving

/-- The log tells what has happened: the bytes of the logged sends are those that have gone to
the client since `start`, and the logged openings those that libssh was asked for. -/
structure LogTells (start : Connection) (serving : Serving) : Prop where
  sent : serving.connection.socket.outgoing = start.socket.outgoing ++
    takenBytes (serving.calls.filterMap ServeCall.sent)
  opens : serving.connection.opens =
    start.opens ++ serving.calls.filterMap ServeCall.native

variable {start : Connection}

/-- Calls that neither send nor open. -/
theorem LogTells.log {serving after : Serving} (h : LogTells start serving)
    {more : List ServeCall} (hcalls : after.calls = serving.calls ++ more)
    (hsocket : after.connection.socket = serving.connection.socket)
    (hopens : after.connection.opens = serving.connection.opens)
    (hsent : more.filterMap ServeCall.sent = []) (hnative : more.filterMap ServeCall.native = []) :
    LogTells start after := by
  constructor
  · rw [hsocket, hcalls, List.filterMap_append, hsent, List.append_nil]
    exact h.sent
  · rw [hopens, hcalls, List.filterMap_append, hnative, List.append_nil]
    exact h.opens

theorem keeps_reply (breaksBefore : Option ℕ) (isSocks4 granted : Bool) (status : UInt8) :
    Keeps (LogTells start) (reply breaksBefore isSocks4 granted status) := by
  intro serving h
  obtain ⟨sends, socket, hrun, -, hout⟩ := reply_spec breaksBefore isSocks4 granted status serving
  rw [hrun]
  constructor
  · rw [hout, h.sent, List.filterMap_append, sent_sends, List.append_assoc, takenBytes, takenBytes,
      takenBytes, List.flatMap_append]
  · rw [List.filterMap_append, native_sends, List.append_nil]
    exact h.opens

theorem keeps_allowed (options : SocksOptions) (throws : Bool) (target : ForwardTarget) :
    Keeps (LogTells start) (allowed options throws target) := by
  intro serving h
  cases hallow : options.allow with
  | none =>
    rw [allowed_unset hallow]
    exact h
  | some allow =>
    cases throws with
    | true =>
      rw [allowed_threw hallow]
      exact h.log rfl rfl rfl rfl rfl
    | false =>
      rw [allowed_answered hallow]
      exact h.log rfl rfl rfl rfl rfl

theorem keeps_openChannel (answers : OpenAnswers) (target : ForwardTarget) :
    Keeps (LogTells start) (openChannel answers target) := by
  intro serving h
  rw [openChannel_eq serving rfl]
  constructor
  · rw [List.filterMap_append, sent_openCalls, List.append_nil]
    exact h.sent
  · rw [List.filterMap_append, native_openCalls, ← List.append_assoc, ← h.opens]

theorem keeps_runPump (bufferSize : ℕ) (rounds : List Round) :
    Keeps (LogTells start) (runPump bufferSize rounds) :=
  fun _ h ↦ h.log rfl rfl rfl (sent_pump _) (native_pump _)

theorem keeps_close : Keeps (LogTells start) close := fun _ h ↦ h.log rfl rfl rfl rfl rfl

theorem keeps_reportError (info : ErrorInfo) : Keeps (LogTells start) (reportError info) :=
  fun _ h ↦ h.log rfl rfl rfl rfl rfl

theorem keeps_countRejected : Keeps (LogTells start) countRejected :=
  fun _ h ↦ h.log rfl rfl rfl rfl rfl

theorem keeps_countConnection : Keeps (LogTells start) countConnection :=
  fun _ h ↦ h.log rfl rfl rfl rfl rfl

theorem keeps_serveApproved (options : SocksOptions) (surroundings : Surroundings)
    (isSocks4 : Bool) (target : ForwardTarget) :
    Keeps (LogTells start) (serveApproved options surroundings isSocks4 target) := by
  refine Keeps.bind (keeps_openChannel _ _) fun result ↦ ?_
  rcases result with info | ⟨⟩
  · refine Keeps.bind (keeps_reportError info) fun _ ↦ ?_
    refine Keeps.ite (fun _ ↦ Keeps.pure _) fun _ ↦ ?_
    exact Keeps.bind (keeps_reply _ _ _ _) fun _ ↦ Keeps.bind keeps_close fun _ ↦ Keeps.pure _
  · refine Keeps.bind (keeps_reply _ _ _ _) fun _ ↦ ?_
    refine Keeps.bind keeps_countConnection fun _ ↦ ?_
    exact Keeps.ite (fun _ ↦ Keeps.pure _) fun _ ↦ keeps_runPump _ _

theorem keeps_serveTarget (options : SocksOptions) (surroundings : Surroundings)
    (isSocks4 : Bool) (target : ForwardTarget) :
    Keeps (LogTells start) (serveTarget options surroundings isSocks4 target) := by
  refine Keeps.bind (keeps_allowed _ _ _) fun verdict ↦ ?_
  match verdict with
  | none => exact Keeps.pure _
  | some true => exact keeps_serveApproved _ _ _ _
  | some false =>
    refine Keeps.bind keeps_countRejected fun _ ↦ ?_
    exact Keeps.bind (keeps_reply _ _ _ _) fun _ ↦ Keeps.bind keeps_close fun _ ↦ Keeps.pure _

/-- From the end of the request on. -/
theorem serve_logTells (options : SocksOptions) (surroundings : Surroundings)
    (connection : Connection) :
    LogTells { connection with socket := (readRequest options connection.socket).2 }
      (serve options surroundings { connection }).2 := by
  have hstart : LogTells { connection with socket := (readRequest options connection.socket).2 }
      (receivedBy { connection } (readRequest options connection.socket).2) :=
    ⟨(List.append_nil _).symm, (List.append_nil _).symm⟩
  rw [serve_eq]
  rcases hread : readRequest options connection.socket with ⟨_ | ⟨isSocks4, target⟩, socket⟩
  · rw [hread] at hstart
    exact keeps_close _ hstart
  · rw [hread] at hstart
    exact keeps_serveTarget options surroundings isSocks4 target _ hstart

end Serving

/-! ### One connection -/

/-- A final reply of the version. SOCKS5 has its status in the second byte and SOCKS4 its code,
and zero and `0x5a` tell the client that its request was granted. -/
def IsFinalReply (version : UInt8) (granted : Bool) (text : Bytes) : Prop :=
  (version = socksVersion5 ∧ text.length = 10 ∧ text[0]? = some 0x05 ∧
      (text[1]? = some 0x00 ↔ granted = true)) ∨
    (version = socksVersion4 ∧ text.length = 8 ∧ text[0]? = some 0x00 ∧
      (text[1]? = some 0x5a ↔ granted = true))

/-- The sends are those of one final reply. -/
def RepliesOnce (version : UInt8) (granted : Bool) (sends : List (Bytes × ℕ)) : Prop :=
  ∃ text, IsFinalReply version granted text ∧ SentInPieces text sends

/-- How a connection must be served whose client has sent what `socket` holds: the end, the calls,
the counters and the pump, if one was started. -/
structure ServedOnce (options : SocksOptions) (surroundings : Surroundings) (socket : StreamSocket)
    (before : ForwardStats) (outcome : ServeOutcome) (calls : List ServeCall) (stats : ForwardStats)
    (pumped : Option PumpState) : Prop where
  closed : calls.countP ServeCall.closes = if outcome = .returned then 1 else 0
  /-- The function returns unless something throws or the loop of the pump goes on. -/
  returns : (∀ point, surroundings.throws point = false) →
    (∀ state, pumped = some state → state.done = true) → outcome = .returned
  answered : calls.filterMap ServeCall.sent = [] ∨
    ∃ version granted, socket.incoming.head? = some version ∧
      RepliesOnce version granted (calls.filterMap ServeCall.sent)
  granted : (∃ version, RepliesOnce version true (calls.filterMap ServeCall.sent)) ↔
    calls.any ServeCall.opens = true
  complete : ∀ target, .openDirect target ∈ calls → CompleteRequest options socket.incoming target
  approved : ∀ target, Preceded (.openDirect target)
    (fun earlier ↦ ∀ allow, options.allow = some allow → .allow target (some true) ∈ earlier) calls
  attempted : ∀ call rc, Preceded (.openNative call rc)
    (fun earlier ↦ ∃ target, .openDirect target ∈ earlier) calls
  connections : stats.connections =
    before.connections + if calls.any ServeCall.opens then 1 else 0
  rejected : stats.rejected = before.rejected + if calls.any ServeCall.refuses then 1 else 0

/-! The reply. -/

section Reply

open Serving

variable {isSocks4 granted : Bool} {status : UInt8} {sends : List (Bytes × ℕ)}

theorem isFinalReply_replyText (hstatus : status = 0x00 ↔ granted = true) :
    IsFinalReply (if isSocks4 then socksVersion4 else socksVersion5) granted
      (replyText isSocks4 granted status) := by
  cases isSocks4 with
  | true =>
    refine .inr ⟨rfl, rfl, rfl, ?_⟩
    cases granted with
    | true => exact ⟨fun _ ↦ rfl, fun _ ↦ rfl⟩
    | false => exact ⟨fun h ↦ absurd (Option.some.inj h) (by decide), fun h ↦ nomatch h⟩
  | false => exact .inl ⟨rfl, rfl, rfl, Option.some_inj.trans hstatus⟩

/-- The sends tell the text. -/
theorem SentInPieces.text {text : Bytes} (h : SentInPieces text sends) (hne : text ≠ []) :
    sends.head?.map Prod.fst = some text := by
  cases h with
  | whole => exact absurd rfl hne
  | broken => rfl
  | piece => rfl

theorem IsFinalReply.ne_nil {version : UInt8} {text : Bytes}
    (h : IsFinalReply version granted text) : text ≠ [] := by
  rintro rfl
  rcases h with ⟨-, hlength, -⟩ | ⟨-, hlength, -⟩ <;> exact nomatch hlength

theorem not_repliesOnce_nil {version : UInt8} : ¬ RepliesOnce version granted [] := by
  rintro ⟨text, htext, hsends⟩
  exact nomatch hsends.text htext.ne_nil

/-- A text says of itself whether it grants. -/
theorem IsFinalReply.granted_of_same {version other : UInt8} {text : Bytes}
    (h : IsFinalReply version granted text) (hgrants : IsFinalReply other true text) :
    granted = true := by
  rcases h with ⟨-, hlength, -, hstatus⟩ | ⟨-, hlength, -, hcode⟩
  · rcases hgrants with ⟨-, -, -, hzero⟩ | ⟨-, hshorter, -⟩
    · exact hstatus.mp (hzero.mpr rfl)
    · exact nomatch hlength.symm.trans hshorter
  · rcases hgrants with ⟨-, hlonger, -⟩ | ⟨-, -, -, hgranted⟩
    · exact nomatch hlength.symm.trans hlonger
    · exact hcode.mp (hgranted.mpr rfl)

/-- The client is told that its request was granted exactly if that is the reply. -/
theorem repliesOnce_granted_iff (hstatus : status = 0x00 ↔ granted = true)
    (hsends : SentInPieces (replyText isSocks4 granted status) sends) :
    (∃ version, RepliesOnce version true sends) ↔ granted = true := by
  have hreply : IsFinalReply _ granted (replyText isSocks4 granted status) :=
    isFinalReply_replyText hstatus
  constructor
  · rintro ⟨version, text, htext, hother⟩
    obtain rfl : text = replyText isSocks4 granted status := Option.some.inj
      ((hother.text htext.ne_nil).symm.trans (hsends.text hreply.ne_nil))
    exact hreply.granted_of_same htext
  · rintro rfl
    exact ⟨_, _, hreply, hsends⟩

end Reply

/-! The channel is asked for behind the approval. -/

section Opening

open Serving

variable {options : SocksOptions} {target : ForwardTarget} {rest : List ServeCall}

theorem opening_of_mem {calls : List ServeCall} (h : calls.any ServeCall.opening = false)
    {call : ServeCall} (hcall : call ∈ calls) : call.opening = false := by
  simpa using List.any_eq_false.mp h call hcall

theorem any_opens_of_not_opening {calls : List ServeCall}
    (h : calls.any ServeCall.opening = false) : calls.any ServeCall.opens = false := by
  refine List.any_eq_false.mpr fun call hcall hopens ↦ ?_
  have hopening := opening_of_mem h hcall
  cases call with
  | openNative => exact nomatch hopening
  | _ => exact nomatch hopens

theorem target_of_openDirect {answers : OpenAnswers}
    (hrest : rest.any ServeCall.opening = false) {other : ForwardTarget}
    (h : .openDirect other ∈ askedOf options target ++ (openCalls answers target ++ rest)) :
    other = target := by
  rcases List.mem_append.mp h with hasked | h
  · exact nomatch opening_of_mem (any_opening_askedOf options target) hasked
  · rcases List.mem_append.mp h with hattempt | hlater
    · rcases List.mem_cons.mp hattempt with heq | hnative
      · exact ServeCall.openDirect.inj heq
      · obtain ⟨call, -, heq⟩ := List.mem_map.mp hnative
        exact nomatch heq
    · exact nomatch opening_of_mem hrest hlater

theorem preceded_openDirect (options : SocksOptions) (answers : OpenAnswers)
    (target : ForwardTarget) (hrest : rest.any ServeCall.opening = false) (other : ForwardTarget) :
    Preceded (.openDirect other)
      (fun earlier ↦ ∀ allow, options.allow = some allow → .allow other (some true) ∈ earlier)
      (askedOf options target ++ (openCalls answers target ++ rest)) := by
  by_cases hsame : other = target
  · subst hsame
    have hasked : ∀ allow, options.allow = some allow →
        .allow other (some true) ∈ askedOf options other := by
      intro allow hallow
      rw [askedOf, hallow]
      exact List.mem_singleton_self _
    have hnone : .openDirect other ∉ askedOf options other := fun h ↦
      Bool.false_ne_true (opening_of_mem (any_opening_askedOf options other) h).symm
    rw [preceded_append]
    refine ⟨preceded_of_notMem hnone, fun before _ allow hallow ↦ ?_⟩
    exact List.mem_append_left before (hasked allow hallow)
  · exact preceded_of_notMem fun h ↦ hsame (target_of_openDirect hrest h)

theorem preceded_openNative (options : SocksOptions) (answers : OpenAnswers)
    (target : ForwardTarget) (rest : List ServeCall) (call : NativeOpen) (rc : ℤ) :
    Preceded (.openNative call rc) (fun earlier ↦ ∃ target, .openDirect target ∈ earlier)
      (askedOf options target ++ (openCalls answers target ++ rest)) := by
  have hnone : .openNative call rc ∉ askedOf options target := fun h ↦
    nomatch opening_of_mem (any_opening_askedOf options target) h
  rw [preceded_append, openCalls, List.cons_append,
    preceded_cons_of_ne (nofun : ServeCall.openDirect target ≠ .openNative call rc)]
  refine ⟨preceded_of_notMem hnone, fun before _ ↦ ⟨target, ?_⟩⟩
  exact List.mem_append_right _ List.mem_cons_self

end Opening

section ServedOnce

open Serving

variable {options : SocksOptions} {surroundings : Surroundings} {connection : Connection}
  {isSocks4 granted : Bool} {target : ForwardTarget} {status : UInt8} {sends : List (Bytes × ℕ)}

/-- The client is answered in the version in which it asked. -/
theorem repliesOnce_of_read
    (hread : (readRequest options connection.socket).1 = some (isSocks4, target))
    (hstatus : status = 0x00 ↔ granted = true)
    (hsends : SentInPieces (replyText isSocks4 granted status) sends) :
    ∃ version granted, connection.socket.incoming.head? = some version ∧
      RepliesOnce version granted sends :=
  ⟨_, granted, (readRequest_complete hread).2, _, isFinalReply_replyText hstatus, hsends⟩

/-- A connection for which nothing is opened. -/
theorem servedOnce_unopened {outcome : ServeOutcome} {calls : List ServeCall}
    {stats : ForwardStats} (hopening : calls.any ServeCall.opening = false)
    (hclosed : calls.countP ServeCall.closes = if outcome = .returned then 1 else 0)
    (hreturns : (∀ point, surroundings.throws point = false) → outcome = .returned)
    (hanswered : calls.filterMap ServeCall.sent = [] ∨
      ∃ version granted, connection.socket.incoming.head? = some version ∧
        RepliesOnce version granted (calls.filterMap ServeCall.sent))
    (hrefused : ¬ ∃ version, RepliesOnce version true (calls.filterMap ServeCall.sent))
    (hconnections : stats.connections = connection.stats.connections)
    (hrejected : stats.rejected =
      connection.stats.rejected + if calls.any ServeCall.refuses then 1 else 0) :
    ServedOnce options surroundings connection.socket connection.stats outcome calls stats
      connection.pumped := by
  have hopens := any_opens_of_not_opening hopening
  have hnone : ∀ call : ServeCall, call.opening = true → call ∉ calls := fun call hcall hmem ↦
    absurd (opening_of_mem hopening hmem) (by simp [hcall])
  exact {
    closed := hclosed
    returns := fun hthrows _ ↦ hreturns hthrows
    answered := hanswered
    granted := by simp [hopens, hrefused]
    complete := fun target hmem ↦ absurd hmem (hnone _ rfl)
    approved := fun target ↦ preceded_of_notMem (hnone _ rfl)
    attempted := fun call rc ↦ preceded_of_notMem (hnone _ rfl)
    connections := by rw [hopens, hconnections]; rfl
    rejected := hrejected }

/-- A connection for which a channel is asked for, by what comes behind. -/
theorem servedOnce_attempted {outcome : ServeOutcome} {rest : List ServeCall}
    {stats : ForwardStats} {pumped : Option PumpState}
    (hread : (readRequest options connection.socket).1 = some (isSocks4, target))
    (hopening : rest.any ServeCall.opening = false)
    (hclosed : rest.countP ServeCall.closes = if outcome = .returned then 1 else 0)
    (hreturns : (∀ point, surroundings.throws point = false) →
      (∀ state, pumped = some state → state.done = true) → outcome = .returned)
    (hanswered : rest.filterMap ServeCall.sent = [] ∨
      ∃ version granted, connection.socket.incoming.head? = some version ∧
        RepliesOnce version granted (rest.filterMap ServeCall.sent))
    (hgranted : (∃ version, RepliesOnce version true (rest.filterMap ServeCall.sent)) ↔
      (openDirect surroundings.answers target defaultOrigin).2.isOk = true)
    (hconnections : stats.connections = connection.stats.connections +
      if (openDirect surroundings.answers target defaultOrigin).2.isOk then 1 else 0)
    (hrefuses : rest.any ServeCall.refuses = false)
    (hrejected : stats.rejected = connection.stats.rejected) :
    ServedOnce options surroundings connection.socket connection.stats outcome
      (askedOf options target ++ (openCalls surroundings.answers target ++ rest)) stats pumped := by
  have hsent : (askedOf options target ++ (openCalls surroundings.answers target ++ rest)).filterMap
      ServeCall.sent = rest.filterMap ServeCall.sent := by
    rw [List.filterMap_append, List.filterMap_append, sent_askedOf, sent_openCalls]
    rfl
  have hopens : (askedOf options target ++ (openCalls surroundings.answers target ++ rest)).any
      ServeCall.opens = (openDirect surroundings.answers target defaultOrigin).2.isOk := by
    rw [List.any_append, List.any_append, any_opens_askedOf, any_opens_openCalls,
      any_opens_of_not_opening hopening, Bool.false_or, Bool.or_false]
  refine ⟨?_, hreturns, ?_, ?_, fun other hmem ↦ ?_,
    preceded_openDirect options surroundings.answers target hopening,
    preceded_openNative options surroundings.answers target rest, ?_, ?_⟩
  · rw [List.countP_append, List.countP_append, countP_closes_askedOf, countP_closes_openCalls,
      Nat.zero_add, Nat.zero_add, hclosed]
  · rw [hsent]
    exact hanswered
  · rw [hsent, hopens]
    exact hgranted
  · rw [target_of_openDirect hopening hmem]
    exact (readRequest_complete hread).1
  · rw [hopens]
    exact hconnections
  · rw [List.any_append, List.any_append, any_refuses_askedOf, any_refuses_openCalls, hrefuses]
    exact hrejected

/-- A connection that `allow` has let through. -/
theorem servedOnce_approved {outcome : ServeOutcome} {rest : List ServeCall}
    {stats : ForwardStats} {pumped : Option PumpState}
    (hread : (readRequest options connection.socket).1 = some (isSocks4, target))
    (hpath : ApprovedPath options surroundings isSocks4 target connection.stats connection.pumped
      outcome rest stats pumped) :
    ServedOnce options surroundings connection.socket connection.stats outcome
      (askedOf options target ++ (openCalls surroundings.answers target ++ rest)) stats pumped := by
  cases hpath with
  | reportThrew hopen hthrows =>
    refine servedOnce_attempted hread rfl rfl
      (fun hnone ↦ nomatch hthrows.symm.trans (hnone .onError)) (.inl rfl) ?_ ?_ rfl rfl
    · rw [hopen]
      exact ⟨fun ⟨_, h⟩ ↦ absurd h not_repliesOnce_nil, fun h ↦ nomatch h⟩
    · rw [hopen]
      rfl
  | @unopened info sends hopen hsends =>
    have hsent : ([.reportError info] ++ sends.map sendCall ++ [.close] :
        List ServeCall).filterMap ServeCall.sent = sends := by
      rw [List.filterMap_append, List.filterMap_append, sent_sends]
      exact List.append_nil _
    refine servedOnce_attempted hread ?_ ?_ (fun _ _ ↦ rfl) (.inr ?_) ?_ ?_ ?_ rfl
    · rw [List.any_append, List.any_append, any_opening_sends]
      rfl
    · rw [List.countP_append, List.countP_append, countP_closes_sends]
      rfl
    · rw [hsent]
      exact repliesOnce_of_read hread (by decide) hsends
    · rw [hsent, hopen, repliesOnce_granted_iff (by decide) hsends]
      rfl
    · rw [hopen]
      rfl
    · rw [List.any_append, List.any_append, any_refuses_sends]
      rfl
  | @bufferThrew sends hopen hsends hthrows =>
    have hsent : (sends.map sendCall ++ [.countConnection] : List ServeCall).filterMap
        ServeCall.sent = sends := by
      rw [List.filterMap_append, sent_sends]
      exact List.append_nil _
    refine servedOnce_attempted hread ?_ ?_
      (fun hnone ↦ nomatch hthrows.symm.trans (hnone .pumpBuffer)) (.inr ?_) ?_ ?_ ?_ rfl
    · rw [List.any_append, any_opening_sends]
      rfl
    · rw [List.countP_append, countP_closes_sends]
      rfl
    · rw [hsent]
      exact repliesOnce_of_read hread (by decide) hsends
    · rw [hsent, hopen, repliesOnce_granted_iff (by decide) hsends]
      rfl
    · rw [hopen]
      rfl
    · rw [List.any_append, any_refuses_sends]
      rfl
  | @opened sends counted state hopen hsends hcounted hpump =>
    have hsent : (sends.map sendCall ++ [.countConnection] ++
        (pumpCalls options.bufferSize counted surroundings.rounds).map .pump :
          List ServeCall).filterMap ServeCall.sent = sends := by
      rw [List.filterMap_append, List.filterMap_append, sent_sends, sent_pump]
      exact (List.append_nil _).trans (List.append_nil _)
    obtain ⟨hconnections, hrejected⟩ : state.stats.connections = counted.connections ∧
        state.stats.rejected = counted.rejected := by
      rw [hpump]
      exact pump_counters surroundings.rounds
    refine servedOnce_attempted hread ?_ ?_ (fun _ hdone ↦ if_pos (hdone state rfl)) (.inr ?_) ?_
      ?_ ?_ ?_
    · rw [List.any_append, List.any_append, any_opening_sends, any_opening_pump]
      rfl
    · rw [List.countP_append, List.countP_append, countP_closes_sends, countP_closes_pump,
        count_closeSocket, ← hpump]
      cases state.done <;> rfl
    · rw [hsent]
      exact repliesOnce_of_read hread (by decide) hsends
    · rw [hsent, hopen, repliesOnce_granted_iff (by decide) hsends]
      rfl
    · rw [hopen, hconnections, hcounted]
      rfl
    · rw [List.any_append, List.any_append, any_refuses_sends, any_refuses_pump]
      rfl
    · rw [hrejected, hcounted]

theorem servedOnce_of_path {outcome : ServeOutcome} {calls : List ServeCall} {stats : ForwardStats}
    {pumped : Option PumpState}
    (h : ServePath options surroundings connection outcome calls stats pumped) :
    ServedOnce options surroundings connection.socket connection.stats outcome calls stats
      pumped := by
  cases h with
  | unread =>
    exact servedOnce_unopened rfl rfl (fun _ ↦ rfl) (.inl rfl)
      (fun ⟨_, h⟩ ↦ not_repliesOnce_nil h) rfl rfl
  | askingThrew hread hallow hthrows =>
    exact servedOnce_unopened rfl rfl (fun hnone ↦ nomatch hthrows.symm.trans (hnone .allow))
      (.inl rfl) (fun ⟨_, h⟩ ↦ not_repliesOnce_nil h) rfl rfl
  | @refused isSocks4 target allow sends hread hallow hanswer hsends =>
    have hsent : ([.allow target (some false), .countRejected] ++ sends.map sendCall ++
        [.close] : List ServeCall).filterMap ServeCall.sent = sends := by
      rw [List.filterMap_append, List.filterMap_append, sent_sends]
      exact List.append_nil _
    refine servedOnce_unopened ?_ ?_ (fun _ ↦ rfl) (.inr ?_) ?_ rfl ?_
    · rw [List.any_append, List.any_append, any_opening_sends]
      rfl
    · rw [List.countP_append, List.countP_append, countP_closes_sends]
      rfl
    · rw [hsent]
      exact repliesOnce_of_read hread (by decide) hsends
    · rw [hsent, repliesOnce_granted_iff (by decide) hsends]
      exact Bool.false_ne_true
    · rw [List.any_append, List.any_append, any_refuses_sends]
      rfl
  | approved hread happroves hpath => exact servedOnce_approved hread hpath

/-- A connection whose channel was opened is done with when its pump is. -/
theorem pump_done_of_returned {outcome : ServeOutcome} {calls : List ServeCall}
    {stats : ForwardStats} {pumped : Option PumpState}
    (h : ServePath options surroundings connection outcome calls stats pumped)
    (houtcome : outcome = .returned)
    (hread : (readRequest options connection.socket).1 = some (isSocks4, target))
    (happroves : Approves options target)
    (hopen : (openDirect surroundings.answers target defaultOrigin).2 = .ok ()) :
    (pump options.bufferSize
      { connection.stats with connections := connection.stats.connections + 1 }
      surroundings.rounds).done = true := by
  cases h with
  | unread hnone => exact nomatch hnone.symm.trans hread
  | askingThrew => exact nomatch houtcome
  | refused hread' hallow hanswer =>
    obtain ⟨rfl, rfl⟩ := Prod.mk.inj (Option.some.inj (hread'.symm.trans hread))
    exact nomatch hanswer.symm.trans (happroves _ hallow)
  | approved hread' _ hpath =>
    obtain ⟨rfl, rfl⟩ := Prod.mk.inj (Option.some.inj (hread'.symm.trans hread))
    cases hpath with
    | reportThrew => exact nomatch houtcome
    | unopened herror => exact nomatch herror.symm.trans hopen
    | bufferThrew => exact nomatch houtcome
    | opened _ _ hcounted hpump =>
      rw [← hcounted, ← hpump]
      by_contra hrunning
      rw [if_neg hrunning] at houtcome
      exact nomatch houtcome

end ServedOnce

/-- A pump on which nothing happens goes on. -/
theorem pump_idle (bufferSize : ℕ) (stats : ForwardStats) (count : ℕ) :
    pump bufferSize stats (List.replicate count {}) = pumpStart bufferSize stats := by
  induction count with
  | zero => rfl
  | succ count ih => exact ih

/-- A SOCKS5 client that asks for port 80 of `web`. -/
def webClient : StreamSocket where
  incoming := [5, 1, 0, 5, 1, 0, 3, 3] ++ ascii "web" ++ [0, 80]

end LibSshpp.Forwarding
