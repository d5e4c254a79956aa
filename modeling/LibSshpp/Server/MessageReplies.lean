import LibSshpp.Server.HandlerBridge

/-!
The message style of the server: messages are pulled from the session and replied to one by one.
A reply to an authentication request also records the login in the session, through the pointer
that the message has to it. The record is made when libssh was called, whether or not the call
succeeded.
-/

set_option autoImplicit false
set_option relaxedAutoImplicit false

namespace LibSshpp.Server.MessageStyle

open Program

/-- A message of libssh, with what `ssh_message_auth_user` says about it. -/
structure NativeMessage where
  authUser : Option Bytes := none
  deriving DecidableEq, Repr

/-- libssh's functions that reply to a message. -/
inductive NativeReply
  | default | authSuccess | authPkOk | channelOpenAccept | requestSuccess
  deriving DecidableEq, Repr

/-- `server::Message`. -/
structure Message where
  native : Option NativeMessage := none
  session : Bool := false
  replied : Bool := false
  deriving DecidableEq, Repr

/-- A session with the message objects of its user, which are told apart by numbers, and the
replies that went to libssh. -/
structure Conversation where
  core : Bool := true
  bridge : Bool := false
  usedMessageStyle : Bool := false
  login : Login := {}
  messages : ℕ → Message := fun _ ↦ {}
  sent : List (NativeMessage × NativeReply) := []

def Conversation.setMessage (conversation : Conversation) (number : ℕ) (message : Message) :
    Conversation :=
  { conversation with messages := Function.update conversation.messages number message }

/-- `auth_user`. -/
def Message.authUser (message : Message) : Bytes :=
  match message.native with
  | none => []
  | some native => native.authUser.getD []

/-- What `~Message` and the assignment do about the message that was held. -/
def release (number : ℕ) : StateM Conversation Unit := fun conversation ↦
  match conversation.messages number with
  | { native := some native, replied := false, .. } =>
    ((), { conversation with sent := conversation.sent ++ [(native, .default)] })
  | _ => ((), conversation)

/-- `Message::operator=`, and what the move leaves behind. -/
def moveAssign (source target : ℕ) : StateM Conversation Unit := fun conversation ↦
  if source = target then ((), conversation)
  else
    let conversation := (release target conversation).2
    let moved := conversation.messages source
    let conversation := conversation.setMessage target moved
    ((), conversation.setMessage source { moved with native := none, replied := true })

/-- `~Message`. -/
def destroy (number : ℕ) : StateM Conversation Unit := fun conversation ↦
  ((), (release number conversation).2.setMessage number {})

/-- `try_next_message`, whose message is assigned to one of the objects. `poll` is asked unless the
timeout is negative; `raw` is what `ssh_message_get` returns. -/
def tryNextMessage (number : ℕ) (timeout poll : ℤ) (raw : Option NativeMessage) :
    StateM Conversation (Result Bool) := fun conversation ↦
  if conversation.core = false then
    (.error { code := .ssh .invalidHandle, operation := "server::Session::try_next_message" },
      conversation)
  else if conversation.bridge then
    (.error {
      code := .ssh .invalidArgument
      message := "session already uses the callback style (try_set_handler)"
      operation := "server::Session::try_next_message" }, conversation)
  else
    let conversation := { conversation with usedMessageStyle := true }
    if 0 ≤ timeout ∧ poll ≤ 0 then (.ok false, conversation)
    else
      match raw with
      | none => (.ok false, conversation)
      | some native =>
        (.ok true, (release number conversation).2.setMessage number
          { native := some native, session := true })

def invalidHandle (operation : String) : ErrorInfo where
  code := .ssh .invalidHandle
  operation := operation

/-- libssh was called to reply to the message. -/
def Conversation.replied (conversation : Conversation) (number : ℕ) (native : NativeMessage)
    (kind : NativeReply) : Conversation :=
  { conversation.setMessage number { conversation.messages number with replied := true } with
    sent := conversation.sent ++ [(native, kind)] }

/-- The replies that do no more than to call libssh. -/
def reply (method : String) (kind : NativeReply) (operation : String) (failure : Errc)
    (number : ℕ) (rc : ℤ) : StateM Conversation (Result Unit) := fun conversation ↦
  match (conversation.messages number).native with
  | none => (.error (invalidHandle method), conversation)
  | some native =>
    (if rc ≠ sshOk then .error { code := .ssh failure, operation } else .ok (),
      conversation.replied number native kind)

/-- `partial` is not looked at. -/
def tryReplyAuthFailure (number : ℕ) (_isPartial : Bool) (rc : ℤ) :
    StateM Conversation (Result Unit) :=
  reply "Message::try_reply_auth_failure" .default "ssh_message_reply_default" .fatal number rc

def tryReplyAuthPkOk : ℕ → ℤ → StateM Conversation (Result Unit) :=
  reply "Message::try_reply_auth_pk_ok" .authPkOk "ssh_message_auth_reply_pk_ok_simple" .fatal

def tryReplyDefault : ℕ → ℤ → StateM Conversation (Result Unit) :=
  reply "Message::try_reply_default" .default "ssh_message_reply_default" .fatal

def tryReplySuccess : ℕ → ℤ → StateM Conversation (Result Unit) :=
  reply "Message::try_reply_success" .requestSuccess "ssh_message_channel_request_reply_success"
    .channelRequestFailed

def tryReplyFailure : ℕ → ℤ → StateM Conversation (Result Unit) :=
  reply "Message::try_reply_failure" .default "ssh_message_reply_default" .channelRequestFailed

/-- `try_accept_channel_open`, where libssh returns a channel or none; the result is whether the
channel has the core of the session. -/
def tryAcceptChannelOpen (number : ℕ) (opened : Bool) : StateM Conversation (Result Bool) :=
  fun conversation ↦
    match conversation.messages number with
    | { native := none, .. } =>
      (.error (invalidHandle "Message::try_accept_channel_open"), conversation)
    | { native := some native, session, .. } =>
      (if opened then .ok (session && conversation.core)
        else .error {
          code := .ssh .channelOpenFailed
          operation := "ssh_message_channel_request_open_reply_accept" },
        conversation.replied number native .channelOpenAccept)

/-- `try_reply_auth_success`, which records the login before it looks at the return code. -/
def tryReplyAuthSuccess (number : ℕ) (rc : ℤ) : StateM Conversation (Result Unit) :=
  fun conversation ↦
    match conversation.messages number with
    | { native := none, .. } =>
      (.error (invalidHandle "Message::try_reply_auth_success"), conversation)
    | { native := some native, session, replied } =>
      let message : Message := { native := some native, session, replied }
      let conversation := conversation.replied number native .authSuccess
      (if rc ≠ sshOk then
          .error { code := .ssh .authDenied, operation := "ssh_message_auth_reply_success" }
        else .ok (),
        if session then
          { conversation with login := { authenticated := true, user := message.authUser } }
        else conversation)

/-! ### Conversations -/

/-- What the user of a session does: pulling a message, replying to one, and moving and destroying
the objects. The numbers are the objects and the return codes of libssh. -/
inductive MessageCall
  | nextMessage (number : ℕ) (timeout poll : ℤ) (raw : Option NativeMessage)
  | replyAuthSuccess (number : ℕ) (rc : ℤ)
  | replyAuthFailure (number : ℕ) (isPartial : Bool) (rc : ℤ)
  | replyAuthPkOk (number : ℕ) (rc : ℤ)
  | replyDefault (number : ℕ) (rc : ℤ)
  | acceptChannelOpen (number : ℕ) (opened : Bool)
  | replySuccess (number : ℕ) (rc : ℤ)
  | replyFailure (number : ℕ) (rc : ℤ)
  | move (source target : ℕ)
  | destroy (number : ℕ)

/-- A call, and whether it returns an error. -/
def messageCall : MessageCall → StateM Conversation (Result Unit)
  | .nextMessage number timeout poll raw => do
    pure ((← tryNextMessage number timeout poll raw).map fun _ ↦ ())
  | .replyAuthSuccess number rc => tryReplyAuthSuccess number rc
  | .replyAuthFailure number isPartial rc => tryReplyAuthFailure number isPartial rc
  | .replyAuthPkOk number rc => tryReplyAuthPkOk number rc
  | .replyDefault number rc => tryReplyDefault number rc
  | .acceptChannelOpen number opened => do
    pure ((← tryAcceptChannelOpen number opened).map fun _ ↦ ())
  | .replySuccess number rc => tryReplySuccess number rc
  | .replyFailure number rc => tryReplyFailure number rc
  | .move source target => do
    moveAssign source target
    pure (.ok ())
  | .destroy number => do
    MessageStyle.destroy number
    pure (.ok ())

def messageStep (call : MessageCall) : StateM Conversation Unit := discard (messageCall call)

/-- The login is touched only by an authentication reply that succeeds. -/
structure LoginKept (conversation : Conversation) (call : MessageCall) : Prop where
  onlyByReply : (messageStep call conversation).2.login ≠ conversation.login →
    (∃ number rc, call = .replyAuthSuccess number rc) ∧
      (messageCall call conversation).1 = .ok ()
  onError : ∀ info, (messageCall call conversation).1 = .error info →
    (messageStep call conversation).2.login = conversation.login

/-- libssh fails to send the reply to a message, and the session has not recorded the same login
before. -/
def LoginUnsent (conversation : Conversation) : MessageCall → Prop
  | .replyAuthSuccess number rc =>
    rc ≠ sshOk ∧ (conversation.messages number).session = true ∧
      ∃ native, (conversation.messages number).native = some native ∧
        conversation.login ≠ { authenticated := true, user := native.authUser.getD [] }
  | _ => False

/-! ### What the calls do to the login -/

section Login

variable (conversation : Conversation)

theorem login_release (number : ℕ) :
    (release number conversation).2.login = conversation.login := by
  rw [release]
  split <;> rfl

theorem login_moveAssign (source target : ℕ) :
    (moveAssign source target conversation).2.login = conversation.login := by
  rw [moveAssign]
  split_ifs
  · rfl
  · exact login_release conversation target

theorem login_tryNextMessage (number : ℕ) (timeout poll : ℤ) (raw : Option NativeMessage) :
    (tryNextMessage number timeout poll raw conversation).2.login = conversation.login := by
  unfold tryNextMessage
  split_ifs
  · rfl
  · rfl
  · rfl
  · cases raw with
    | none => rfl
    | some native => exact login_release { conversation with usedMessageStyle := true } number

theorem login_reply (method : String) (kind : NativeReply) (operation : String) (failure : Errc)
    (number : ℕ) (rc : ℤ) :
    (reply method kind operation failure number rc conversation).2.login =
      conversation.login := by
  unfold reply
  split <;> rfl

theorem login_tryAcceptChannelOpen (number : ℕ) (opened : Bool) :
    (tryAcceptChannelOpen number opened conversation).2.login = conversation.login := by
  unfold tryAcceptChannelOpen
  split <;> rfl

/-- No call but one touches the login. -/
theorem login_messageCall {call : MessageCall}
    (hcall : ∀ number rc, call ≠ .replyAuthSuccess number rc) :
    (messageCall call conversation).2.login = conversation.login := by
  cases call with
  | nextMessage number timeout poll raw =>
    exact login_tryNextMessage conversation number timeout poll raw
  | replyAuthSuccess number rc => exact absurd rfl (hcall number rc)
  | replyAuthFailure number isPartial rc => exact login_reply conversation _ _ _ _ number rc
  | replyAuthPkOk number rc => exact login_reply conversation _ _ _ _ number rc
  | replyDefault number rc => exact login_reply conversation _ _ _ _ number rc
  | acceptChannelOpen number opened => exact login_tryAcceptChannelOpen conversation number opened
  | replySuccess number rc => exact login_reply conversation _ _ _ _ number rc
  | replyFailure number rc => exact login_reply conversation _ _ _ _ number rc
  | move source target => exact login_moveAssign conversation source target
  | destroy number => exact login_release conversation number

/-- What the reply to an authentication request returns and records. -/
theorem tryReplyAuthSuccess_spec (number : ℕ) (rc : ℤ) :
    ((conversation.messages number).native = none ∧
      (tryReplyAuthSuccess number rc conversation).2.login = conversation.login) ∨
    ∃ native, (conversation.messages number).native = some native ∧
      ((tryReplyAuthSuccess number rc conversation).1 = .ok () ↔ rc = sshOk) ∧
      (tryReplyAuthSuccess number rc conversation).2.login =
        if (conversation.messages number).session then
          { authenticated := true, user := native.authUser.getD [] }
        else conversation.login := by
  unfold tryReplyAuthSuccess
  rcases hmessage : conversation.messages number with ⟨_ | native, session, replied⟩
  · exact .inl ⟨rfl, rfl⟩
  · refine .inr ⟨native, rfl, ?_, ?_⟩
    · by_cases hrc : rc = sshOk <;> simp [hrc]
    · cases session <;> rfl

end Login

theorem loginKept_of_unchanged {conversation : Conversation} {call : MessageCall}
    (h : (messageCall call conversation).2.login = conversation.login) :
    LoginKept conversation call :=
  ⟨fun hchanged ↦ absurd h hchanged, fun _ _ ↦ h⟩

/-- An authentication reply is kept to the rule when it changes nothing or succeeds. -/
theorem loginKept_replyAuthSuccess (conversation : Conversation) (number : ℕ) (rc : ℤ) :
    LoginKept conversation (.replyAuthSuccess number rc) ↔
      ((tryReplyAuthSuccess number rc conversation).2.login = conversation.login ∨
        (tryReplyAuthSuccess number rc conversation).1 = .ok ()) := by
  constructor
  · intro hkept
    by_cases hsame : (tryReplyAuthSuccess number rc conversation).2.login = conversation.login
    · exact .inl hsame
    · exact .inr (hkept.onlyByReply hsame).2
  · rintro (hsame | hok)
    · exact loginKept_of_unchanged hsame
    · exact ⟨fun _ ↦ ⟨⟨number, rc, rfl⟩, hok⟩, fun info herror ↦ nomatch hok.symm.trans herror⟩

/-- One call touches the login as it should, unless libssh fails to send a reply by which somebody
would have logged in. -/
theorem loginKept_iff (conversation : Conversation) (call : MessageCall) :
    LoginKept conversation call ↔ ¬ LoginUnsent conversation call := by
  by_cases hcall : ∃ number rc, call = .replyAuthSuccess number rc
  · obtain ⟨number, rc, rfl⟩ := hcall
    rw [loginKept_replyAuthSuccess, LoginUnsent]
    rcases tryReplyAuthSuccess_spec conversation number rc with
      ⟨hnone, hsame⟩ | ⟨native, hnative, hok, hlogin⟩
    · refine iff_of_true (.inl hsame) fun ⟨_, _, native, hnative, _⟩ ↦ ?_
      exact nomatch hnone.symm.trans hnative
    · rw [hok, hlogin]
      by_cases hsession : (conversation.messages number).session = true
      · rw [if_pos hsession]
        constructor
        · rintro (hsame | hrc) ⟨hfailed, _, other, hother, hnew⟩
          · obtain rfl := Option.some.inj (hnative.symm.trans hother)
            exact hnew hsame.symm
          · exact hfailed hrc
        · intro hsent
          by_contra hlost
          obtain ⟨hnew, hfailed⟩ := not_or.mp hlost
          exact hsent ⟨hfailed, hsession, native, hnative, Ne.symm hnew⟩
      · rw [if_neg hsession]
        exact iff_of_true (.inl rfl) fun hlost ↦ hsession hlost.2.1
  · have hother : ∀ number rc, call ≠ .replyAuthSuccess number rc :=
      fun number rc heq ↦ hcall ⟨number, rc, heq⟩
    have hkept := loginKept_of_unchanged (login_messageCall conversation hother)
    refine iff_of_true hkept fun hlost ↦ ?_
    cases call with
    | replyAuthSuccess number rc => exact hother number rc rfl
    | _ => exact hlost

/-- In every conversation the login is touched only by an authentication reply that succeeds, and
no call that returns an error touches it, if and only if libssh sends every such reply that would
change it. -/
theorem loginKept_run_iff (calls : List MessageCall) (conversation : Conversation) :
    Allowed messageStep LoginKept calls conversation ↔
      Allowed messageStep (fun conversation call ↦ ¬ LoginUnsent conversation call) calls
        conversation :=
  allowed_congr loginKept_iff

/-- A request of a user is pulled, and libssh fails to send the reply. -/
def unsentReply : List MessageCall :=
  [.nextMessage 0 (-1) 0 (some { authUser := some (ascii "ana") }), .replyAuthSuccess 0 (-1)]

theorem unsentReply_recorded :
    (stateAfter messageStep unsentReply {}).login =
        { authenticated := true, user := ascii "ana" } ∧
      ¬ Allowed messageStep LoginKept unsentReply {} := by
  refine ⟨by decide +kernel, ?_⟩
  rintro ⟨-, hkept, -⟩
  have hunchanged := hkept.onError
    { code := .ssh .authDenied, operation := "ssh_message_auth_reply_success" }
    (by decide +kernel)
  exact absurd hunchanged (by decide +kernel)

end LibSshpp.Server.MessageStyle
