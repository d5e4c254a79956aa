import LibSshpp.SftpServer.DirectoryListing

/-!
Whatever the calls in between do, every message is concluded with one reply and freed
once, before the next one is fetched. The reply is a packet unless it is a list of names
for which no entry could be collected.
-/

set_option autoImplicit false
set_option relaxedAutoImplicit false

namespace LibSshpp.SftpServer

open Posix Sftp Program

/-- The event fetches or frees a message. -/
def Event.turns : Event → Bool
  | .received _ | .freed _ => true
  | _ => false

/-- An event in the middle of a request: it fetches and frees no message, and as a reply it
only collects an entry. -/
def Event.passing : Event → Bool
  | .received _ | .freed _ => false
  | .replied reply => reply.collects
  | _ => true

/-- What happens between a message and its release: one packet is sent, and no other
message is fetched or freed. -/
def OneReply (events : List Event) : Prop :=
  packetsSent false (events.filterMap Event.reply) = 1 ∧ ∀ event ∈ events, event.turns = false

/-- The trace of a conversation: each message in turn is fetched, answered once and
freed. -/
inductive Answered : List ClientMessage → List Event → Prop
  | nil : Answered [] []
  | cons {message : ClientMessage} {messages : List ClientMessage} {body rest : List Event} :
      OneReply body → Answered messages rest →
        Answered (message :: messages) (.received message :: (body ++ .freed message :: rest))

/-! ### One request -/

/-- The trace since `start` is in the middle of a request. -/
def PassingSince : World → World → Prop := Since fun event ↦ event.passing = true

/-- The trace of a request: passing events, and one reply that concludes it. -/
def Concluded (type : UInt8) (body : List Event) : Prop :=
  ∃ events answer, body = events ++ [.replied answer] ∧
    (∀ event ∈ events, event.passing = true) ∧ answer.concludes type = true

/-- The request has been concluded since `start`. -/
def ConcludedSince (type : UInt8) (start world : World) : Prop :=
  ∃ body, world.trace = start.trace ++ body ∧ Concluded type body

theorem PassingSince.conclude {start world : World} (h : PassingSince start world)
    {type : UInt8} {answer : Reply} (hanswer : answer.concludes type = true) :
    ConcludedSince type start (world.log (.replied answer)) := by
  obtain ⟨events, htrace, hpassing⟩ := h
  refine ⟨events ++ [.replied answer], ?_, events, answer, rfl, hpassing, hanswer⟩
  rw [World.log, htrace, List.append_assoc]

theorem perform_passing {α : Type} (start : World) (call : PosixCall)
    (op : World → Except Errno (Done α)) : Keeps (PassingSince start) (perform call op) :=
  perform_since op fun _ ↦ rfl

/-- Nothing is asserted but that the trace is in the middle of a request before the reply. -/
def replyStages (message : ClientMessage) (start : World) : Stages where
  pending := PassingSince start
  fresh _ _ := PassingSince start
  holding _ := PassingSince start
  granted _ := PassingSince start
  reading := PassingSince start
  named _ := True
  done := ConcludedSince message.type start

theorem replyRules (table : HandleTable) (options : Options) (message : ClientMessage)
    (start : World) : RequestRules table options message start (replyStages message start) where
  canonical := weaklyCanonical_since
  reply _ hconcludes _ := fun _ h ↦ h.conclude hconcludes
  lstat _ := keepsAt (perform_passing _ _ _)
  stat _ := keepsAt (perform_passing _ _ _)
  readlink _ := keepsAt (perform_passing _ _ _)
  statEntry _ _ := keepsAt (perform_passing _ _ _)
  fstat _ _ := keepsAt (perform_passing _ _ _)
  pread _ _ _ _ := keepsAt (perform_passing _ _ _)
  pwrite _ _ _ _ _ _ := keepsAt (perform_passing _ _ _)
  read _ _ _ _ _ h := h.1
  readdir _ _ _ _ := readdir_triple (fun _ h ↦ ⟨Since.concat h rfl rfl, fun _ _ ↦ trivial⟩)
    fun _ _ h _ ↦ ⟨Since.concat h rfl rfl, fun _ _ ↦ trivial⟩
  lstatChild _ _ _ _ _ _ := perform_passing _ _ _
  collect _ _ _ := fun _ h ↦ Since.concat h rfl rfl
  listed _ h := h
  openFile _ _ _ := openFile_triple (fun _ _ h ↦ Since.concat h.1 rfl rfl)
    fun _ _ h _ ↦ Since.concat (Since.concat h.1 rfl rfl) rfl rfl
  opendir _ := opendir_triple (fun _ _ h ↦ Since.concat h.1 rfl rfl)
    fun _ _ h _ ↦ Since.concat (Since.concat h.1 rfl rfl) rfl rfl
  newAddress _ _ := fun _ h ↦ h
  alloc _ := alloc_triple (fun _ h ↦ h) fun _ _ h _ _ ↦ h
  abandon entry := closeHandle_since (fun _ ↦ rfl) entry
  grant _ := fun _ h ↦ h.conclude rfl
  release _ _ _ := keepsAt (Keeps.bind (remove_since _ _) fun _ ↦ closeHandle_since (fun _ ↦ rfl) _)
  unlink _ _ _ := keepsAt (perform_passing _ _ _)
  mkdir _ _ _ _ := keepsAt (perform_passing _ _ _)
  rmdir _ _ _ _ := keepsAt (perform_passing _ _ _)
  rename _ _ _ _ _ _ := keepsAt (perform_passing _ _ _)
  symlink _ _ _ _ := keepsAt (perform_passing _ _ _)

/-- One turn of the loop fetches the message, concludes it with one reply and frees it. -/
theorem serveMessage_concludes (table : HandleTable) (options : Options)
    (message : ClientMessage) (world : World) :
    ∃ body, (serveMessage table options message world).2.trace =
      world.trace ++ .received message :: (body ++ [.freed message]) ∧
        Concluded message.type body := by
  have hstart : At (world.log (.received message))
      (replyStages message (world.log (.received message))).pending
      (world.log (.received message)) := ⟨since_refl _ _, quiet_refl _⟩
  obtain ⟨body, htrace, hconcluded⟩ :=
    (replyRules table options message (world.log (.received message))).request _ hstart
  exact ⟨body, serveMessage_trace htrace, hconcluded⟩

theorem Concluded.not_turns {type : UInt8} {body : List Event} (h : Concluded type body) :
    ∀ event ∈ body, event.turns = false := by
  obtain ⟨events, answer, rfl, hpassing, -⟩ := h
  intro event hevent
  rcases List.mem_append.mp hevent with hevent | hevent
  · have hpass := hpassing event hevent
    cases event with
    | received message => exact nomatch hpass
    | freed message => exact nomatch hpass
    | replied reply => rfl
    | called call touched => rfl
    | opened resource => rfl
    | closed resource => rfl
  · rw [List.mem_singleton.mp hevent]
    rfl

/-! ### Packets -/

/-- Calls that collect entries send nothing. -/
theorem packetsSent_append_of_collects {adds replies : List Reply} {collected : Bool}
    (hadds : ∀ reply ∈ adds, reply.collects = true) :
    packetsSent collected (adds ++ replies) =
      packetsSent (collected || !adds.isEmpty) replies := by
  induction adds generalizing collected with
  | nil => simp
  | cons add adds ih =>
    obtain ⟨hadd, hrest⟩ := List.forall_mem_cons.mp hadds
    have hsilent : add.sends collected = false := by
      cases add with
      | namesAdd name longname attr => rfl
      | _ => exact nomatch hadd
    rw [List.cons_append, packetsSent, ih hrest, hsilent, hadd]
    simp

theorem packetsSent_single (collected : Bool) (answer : Reply) :
    packetsSent collected [answer] = (answer.sends collected).toNat := rfl

theorem replies_of_passing {events : List Event}
    (h : ∀ event ∈ events, event.passing = true) :
    ∀ reply ∈ events.filterMap Event.reply, reply.collects = true := by
  intro reply hreply
  obtain ⟨event, hevent, heq⟩ := List.mem_filterMap.mp hreply
  cases event with
  | replied other =>
    obtain rfl : other = reply := Option.some.inj heq
    exact h _ hevent
  | _ => exact nomatch heq

/-- What a concluded request calls for its message: entries are collected, and then comes the
one reply. -/
theorem Concluded.replies {type : UInt8} {body : List Event} (h : Concluded type body) :
    ∃ adds answer, body.filterMap Event.reply = adds ++ [answer] ∧
      (∀ reply ∈ adds, reply.collects = true) ∧ answer.concludes type = true := by
  obtain ⟨events, answer, rfl, hpassing, hanswer⟩ := h
  refine ⟨events.filterMap Event.reply, answer, ?_, replies_of_passing hpassing, hanswer⟩
  rw [List.filterMap_append]
  rfl

/-- A request whose lists of names are filled sends one packet. -/
theorem Concluded.packetsSent_of_filled {type : UInt8} {body : List Event}
    (h : Concluded type body)
    (hfilled : type = fxpReaddir → NamesFilled (body.filterMap Event.reply)) :
    packetsSent false (body.filterMap Event.reply) = 1 := by
  obtain ⟨adds, answer, hreplies, hadds, hanswer⟩ := h.replies
  rw [hreplies, packetsSent_append_of_collects hadds, packetsSent_single, Bool.false_or]
  cases answer with
  | namesAdd name longname attr => exact nomatch hanswer
  | names =>
    obtain ⟨found, hfound, hpos, -⟩ :=
      hfilled (of_decide_eq_true hanswer) (by rw [hreplies]; simp)
    have hlength : adds.length = found.length := by
      have hsame := congrArg List.length (hreplies.symm.trans hfound)
      simpa using hsame
    have hne : adds ≠ [] := List.ne_nil_of_length_pos (by omega)
    simp [Reply.sends, hne]
  | _ => rfl

theorem answers_of_body {table : HandleTable} {options : Options} {message : ClientMessage}
    {world : World} {body : List Event}
    (h : (serveMessage table options message world).2.trace =
      world.trace ++ .received message :: (body ++ [.freed message])) :
    answers table options message world = body.filterMap Event.reply := by
  rw [answers, h, List.drop_left, List.filterMap_cons_none rfl, List.filterMap_append,
    List.filterMap_cons_none rfl, List.filterMap_nil, List.append_nil]

/-- A request is answered with one packet exactly if it can report what it reads. -/
theorem packetsSent_eq_one_iff (table : HandleTable) (options : Options)
    (message : ClientMessage) (world : World) :
    packetsSent false (answers table options message world) = 1 ↔
      ReadIsReported table world message := by
  constructor
  · intro hone htype entry hheld hdir stream hstream hnames hread
    by_contra hnone
    rw [answers_of_unreported options htype hheld hdir hstream hnames hread hnone] at hone
    exact absurd hone (by decide)
  · intro h
    obtain ⟨body, htrace, hconcluded⟩ := serveMessage_concludes table options message world
    have hanswers := answers_of_body htrace
    rw [hanswers]
    exact hconcluded.packetsSent_of_filled fun htype ↦
      hanswers ▸ namesFilled_of_reported options htype h

/-! ### The conversation -/

/-- The events before the first that fetches or frees a message. -/
theorem takeWhile_not_turns {body : List Event} (hbody : ∀ event ∈ body, event.turns = false)
    (message : ClientMessage) (rest : List Event) :
    (body ++ .freed message :: rest).takeWhile (fun event ↦ !event.turns) = body := by
  rw [List.takeWhile_append_of_pos fun event hmem ↦ by simp [hbody event hmem],
    List.takeWhile_cons_of_neg (by simp [Event.turns]), List.append_nil]

/-- Where one request ends in a trace, and so what the trace says of it, is determined. -/
theorem answered_cons_iff {message : ClientMessage} {messages : List ClientMessage}
    {body rest : List Event} (hbody : ∀ event ∈ body, event.turns = false) :
    Answered (message :: messages) (.received message :: (body ++ .freed message :: rest)) ↔
      packetsSent false (body.filterMap Event.reply) = 1 ∧ Answered messages rest := by
  constructor
  · generalize hevents : Event.received message :: (body ++ .freed message :: rest) = events
    intro h
    cases h with
    | @cons _ _ other later hone hrest =>
      have htail : body ++ .freed message :: rest = other ++ .freed message :: later :=
        (List.cons.inj hevents).2
      have hsame : body = other := by
        rw [← takeWhile_not_turns hbody message rest, htail, takeWhile_not_turns hone.2]
      subst hsame
      have hlater : rest = later := (List.cons.inj (List.append_cancel_left htail)).2
      exact ⟨hone.1, hlater ▸ hrest⟩
  · intro ⟨hone, hrest⟩
    exact Answered.cons ⟨hone, hbody⟩ hrest

/-- The trace only grows. -/
theorem stateAfter_trace (table : HandleTable) (options : Options)
    (messages : List ClientMessage) (world : World) :
    world.trace <+: (stateAfter (serveMessage table options) messages world).trace := by
  have hstep : ∀ message, Keeps (fun after : World ↦ world.trace <+: after.trace)
      (serveMessage table options message) := by
    intro message after h
    obtain ⟨body, htrace, -⟩ := serveMessage_concludes table options message after
    rw [htrace]
    exact h.trans (List.prefix_append _ _)
  exact invariant_of_keeps hstep messages (List.prefix_refl _)

/-- The messages are answered one after another: what the run has added to the trace. -/
def AnsweredSince (messages : List ClientMessage) (start world : World) : Prop :=
  ∃ events, world.trace = start.trace ++ events ∧ Answered messages events

theorem stateAfter_answered_iff (table : HandleTable) (options : Options)
    (messages : List ClientMessage) (world : World) :
    AnsweredSince messages world (stateAfter (serveMessage table options) messages world) ↔
      Allowed (serveMessage table options) (ReadIsReported table) messages world := by
  induction messages generalizing world with
  | nil => exact ⟨fun _ ↦ trivial, fun _ ↦ ⟨[], (List.append_nil _).symm, Answered.nil⟩⟩
  | cons message messages ih =>
    let first := (serveMessage table options message world).2
    obtain ⟨body, hbody, hconcluded⟩ := serveMessage_concludes table options message world
    obtain ⟨rest, hrest⟩ := stateAfter_trace table options messages first
    have hevents : (stateAfter (serveMessage table options) messages first).trace =
        world.trace ++ .received message :: (body ++ .freed message :: rest) := by
      rw [← hrest, hbody]
      simp
    have hwhole : AnsweredSince (message :: messages) world
          (stateAfter (serveMessage table options) messages first) ↔
        Answered (message :: messages) (.received message :: (body ++ .freed message :: rest)) := by
      refine ⟨fun ⟨events, htrace, h⟩ ↦ ?_, fun h ↦ ⟨_, hevents, h⟩⟩
      exact List.append_cancel_left (htrace.symm.trans hevents) ▸ h
    have hlater : AnsweredSince messages first
          (stateAfter (serveMessage table options) messages first) ↔ Answered messages rest := by
      refine ⟨fun ⟨events, htrace, h⟩ ↦ ?_, fun h ↦ ⟨rest, hrest.symm, h⟩⟩
      exact List.append_cancel_left (htrace.symm.trans hrest.symm) ▸ h
    rw [stateAfter_cons, hwhole, answered_cons_iff hconcluded.not_turns, ← answers_of_body hbody,
      packetsSent_eq_one_iff, ← hlater, ih first, Allowed]

/-- Whatever messages arrive and whatever the calls in between do, each message is fetched,
answered with exactly one packet and freed once, one after another, exactly as long as no
READDIR request reads an entry and can report neither it nor a later one. -/
theorem tryServe_answersEach_iff (table : HandleTable) (options : Options) (startup : Startup)
    (messages : List ClientMessage) (world : World) :
    AnsweredSince (startup.served messages) world
        (tryServe table options startup messages world).2 ↔
      Allowed (serveMessage table options) (ReadIsReported table) (startup.served messages)
        world := by
  rw [tryServe_world]
  exact stateAfter_answered_iff table options _ world

/-- The READDIR of a directory that can be read but not searched gets no packet. -/
theorem unsearchable_unanswered :
    ¬ AnsweredSince
      [{ type := fxpOpendir, filename := some (ascii "/") },
        { type := fxpReaddir, handle := [0, 0, 0, 0] }]
      (World.begin singleFile [] [] (List.replicate 4 .none ++
        [.none, .fail .eacces, .none, .fail .eacces, .none, .fail .eacces]))
      (tryServe HandleTable.firstFree srvServer {}
        [{ type := fxpOpendir, filename := some (ascii "/") },
          { type := fxpReaddir, handle := [0, 0, 0, 0] }]
        (World.begin singleFile [] [] (List.replicate 4 .none ++
          [.none, .fail .eacces, .none, .fail .eacces, .none, .fail .eacces]))).2 := by
  rw [tryServe_world]
  change ¬ AnsweredSince _ _ (stateAfter _ [_, _] _)
  rw [stateAfter_answered_iff]
  rintro ⟨-, h, -⟩
  have hone := (packetsSent_eq_one_iff HandleTable.firstFree srvServer _ _).mpr h
  exact absurd hone (by decide +kernel)

end LibSshpp.SftpServer
