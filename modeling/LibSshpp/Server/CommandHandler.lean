import LibSshpp.Foundation.Bytes
import LibSshpp.Program.StateTriple
import Mathlib.Data.Int.Notation

/-!
`CommandHandler`, which runs a callback per exec request once the client has ended its
input. The client decides in which order requests, data and ends of file arrive; nothing
but `ran_` keeps an end of file from running the callback, and it is clear from the start.
-/

set_option autoImplicit false
set_option relaxedAutoImplicit false

namespace LibSshpp.Server

open Program

/-- How an invocation of the runner ends: with what it returned and wrote to its two
streams, or with an exception. -/
inductive RunnerOutcome
  | returns (code : ℤ) (out err : Bytes)
  | throws
  deriving DecidableEq, Repr

/-- What is delivered to the handler; an end of file comes with the way the runner ends, if
it is invoked. -/
inductive HandlerEvent
  | execRequest (command : Bytes)
  | data (bytes : Bytes) (isStderr : Bool)
  | eof (outcome : RunnerOutcome)
  deriving DecidableEq, Repr

/-- What the handler does: it invokes its runner with a command and its input, or calls a
method of the channel. -/
inductive HandlerCall
  | run (command input : Bytes)
  | writeAll (data : Bytes)
  | writeAllStderr (data : Bytes)
  | sendExitStatus (code : ℤ)
  | sendEof
  deriving DecidableEq, Repr

structure CommandHandler where
  hasRunner : Bool := true
  command : Bytes := []
  inputBuffer : Bytes := []
  eof : Bool := false
  ran : Bool := false
  deriving DecidableEq, Repr

namespace CommandHandler

def onExecRequest (command : Bytes) : StateM CommandHandler Bool := fun handler ↦
  (handler.hasRunner, { handler with command, inputBuffer := [], eof := false, ran := false })

def onData (data : Bytes) (_isStderr : Bool) : StateM CommandHandler ℕ := fun handler ↦
  (data.length, { handler with inputBuffer := handler.inputBuffer ++ data })

/-- What is sent when the runner has returned. -/
def sendResult (code : ℤ) (out err : Bytes) : List HandlerCall :=
  (if out ≠ [] then [.writeAll out] else []) ++
    (if err ≠ [] then [.writeAllStderr err] else []) ++ [.sendExitStatus code, .sendEof]

/-- `on_eof`, with the calls it makes. What the runner throws leaves it. -/
def onEof (outcome : RunnerOutcome) : StateM CommandHandler (List HandlerCall) := fun handler ↦
  if handler.ran then ([], handler)
  else
    (match handler.hasRunner, outcome with
      | true, .returns code out err =>
        .run handler.command handler.inputBuffer :: sendResult code out err
      | true, .throws => [.run handler.command handler.inputBuffer]
      | false, _ => sendResult 1 [] [], { handler with ran := true, eof := true })

/-- An event, with the calls that the handler makes. -/
def handle : HandlerEvent → StateM CommandHandler (List HandlerCall)
  | .execRequest command => do
    discard (onExecRequest command)
    pure []
  | .data bytes isStderr => do
    discard (onData bytes isStderr)
    pure []
  | .eof outcome => onEof outcome

def step (event : HandlerEvent) : StateM CommandHandler Unit :=
  discard (handle event)

/-- The calls of a new handler at an event, after the events before it. -/
def callsAt (served : List HandlerEvent) (event : HandlerEvent) : List HandlerCall :=
  (handle event (stateAfter step served {})).1

end CommandHandler

/-! ### What the client asked for -/

/-- An exec request is waiting for the end of its input: the command, with the bytes
delivered since. -/
def Due (served : List HandlerEvent) (command input : Bytes) : Prop :=
  ∃ (before : List HandlerEvent) (chunks : List (Bytes × Bool)),
    served = before ++ .execRequest command :: chunks.map (fun chunk ↦ .data chunk.1 chunk.2) ∧
      input = chunks.flatMap Prod.fst

theorem due_concat {served : List HandlerEvent} {event : HandlerEvent} {command input : Bytes} :
    Due (served ++ [event]) command input ↔
      (event = .execRequest command ∧ input = []) ∨
        ∃ bytes isStderr earlier, event = .data bytes isStderr ∧ Due served command earlier ∧
          input = earlier ++ bytes := by
  constructor
  · rintro ⟨before, chunks, hserved, rfl⟩
    rcases List.eq_nil_or_concat' chunks with rfl | ⟨chunks, chunk, rfl⟩
    · obtain ⟨-, hevent⟩ := List.append_inj' hserved rfl
      exact .inl ⟨List.singleton_inj.mp hevent, rfl⟩
    · rw [List.map_append, ← List.cons_append, ← List.append_assoc] at hserved
      obtain ⟨hbefore, hevent⟩ := List.append_inj' hserved rfl
      refine .inr ⟨chunk.1, chunk.2, chunks.flatMap Prod.fst, List.singleton_inj.mp hevent,
        ⟨before, chunks, hbefore, rfl⟩, ?_⟩
      rw [List.flatMap_append, List.flatMap_singleton]
  · rintro (⟨rfl, rfl⟩ | ⟨bytes, isStderr, earlier, rfl, ⟨before, chunks, rfl, rfl⟩, rfl⟩)
    · exact ⟨served, [], rfl, rfl⟩
    · refine ⟨before, chunks ++ [(bytes, isStderr)], ?_, ?_⟩
      · rw [List.map_append, List.append_assoc, List.cons_append]
        rfl
      · rw [List.flatMap_append, List.flatMap_singleton]

theorem not_due_nil (command input : Bytes) : ¬ Due [] command input := by
  rintro ⟨before, chunks, hserved, -⟩
  exact List.append_ne_nil_of_right_ne_nil before (List.cons_ne_nil _ _) hserved.symm

/-- What is due was asked for after the last end of file. -/
theorem exec_of_due {served more : List HandlerEvent} {outcome : RunnerOutcome}
    {command input : Bytes} (h : Due (served ++ .eof outcome :: more) command input) :
    ∃ command, .execRequest command ∈ more := by
  induction more using List.reverseRecOn generalizing input with
  | nil =>
    rcases due_concat.mp h with ⟨hevent, -⟩ | ⟨_, _, _, hevent, -⟩
    · exact nomatch hevent
    · exact nomatch hevent
  | append_singleton more event ih =>
    rw [← List.cons_append, ← List.append_assoc] at h
    rcases due_concat.mp h with ⟨rfl, -⟩ | ⟨_, _, earlier, -, hdue, -⟩
    · exact ⟨command, List.mem_append_right _ List.mem_cons_self⟩
    · obtain ⟨other, hother⟩ := ih hdue
      exact ⟨other, List.mem_append_left _ hother⟩

/-- The call writes output of the runner. -/
def HandlerCall.IsOutput : HandlerCall → Prop
  | .writeAll _ => True
  | .writeAllStderr _ => True
  | _ => False

/-- The calls at an event: at the end of the input of a request its command is run, once,
and its output is followed by one exit status and one end of file; otherwise there are
none. -/
structure Answers (served : List HandlerEvent) (event : HandlerEvent) (calls : List HandlerCall) :
    Prop where
  due : ∀ outcome command input, event = .eof outcome → Due served command input →
    ∃ output code, calls = .run command input :: (output ++ [.sendExitStatus code, .sendEof]) ∧
      ∀ call ∈ output, call.IsOutput
  idle : (∀ outcome command input, event = .eof outcome → ¬ Due served command input) → calls = []

/-- The handler runs what is asked for: every event is answered as it should be, and
between two invocations there is another request. -/
structure RunsCommands (events : List HandlerEvent) : Prop where
  answers : ∀ served event, served ++ [event] <+: events →
    Answers served event (CommandHandler.callsAt served event)
  once : ∀ served outcome more other, served ++ .eof outcome :: (more ++ [.eof other]) <+: events →
    CommandHandler.callsAt served (.eof outcome) ≠ [] →
    CommandHandler.callsAt (served ++ .eof outcome :: more) (.eof other) ≠ [] →
      ∃ command, .execRequest command ∈ more

namespace CommandHandler

theorem stateAfter_concat (served : List HandlerEvent) (event : HandlerEvent) :
    stateAfter step (served ++ [event]) {} = (step event (stateAfter step served {})).2 :=
  stateAfter_append step served [event] {}

theorem hasRunner_stateAfter (served : List HandlerEvent) :
    (stateAfter step served {}).hasRunner = true := by
  have hstep : ∀ event, Keeps (fun handler ↦ hasRunner handler = true) (step event) := by
    intro event handler h
    cases event with
    | execRequest command => exact h
    | data bytes isStderr => exact h
    | eof outcome =>
      show (onEof outcome handler).2.hasRunner = true
      unfold onEof
      split_ifs <;> exact h
  exact invariant_of_keeps hstep served rfl

/-- What the handler remembers is what is due. -/
theorem due_iff (served : List HandlerEvent) (command input : Bytes) :
    Due served command input ↔ (∃ command, .execRequest command ∈ served) ∧
      (stateAfter step served {}).ran = false ∧
      command = (stateAfter step served {}).command ∧
      input = (stateAfter step served {}).inputBuffer := by
  induction served using List.reverseRecOn generalizing input with
  | nil => exact iff_of_false (not_due_nil command input) fun h ↦ nomatch h.1
  | append_singleton served event ih =>
    rw [due_concat, stateAfter_concat]
    cases event with
    | execRequest other =>
      constructor
      · rintro (⟨hevent, rfl⟩ | ⟨_, _, _, hevent, -⟩)
        · obtain rfl := HandlerEvent.execRequest.inj hevent
          exact ⟨⟨other, List.mem_append_right _ List.mem_cons_self⟩, rfl, rfl, rfl⟩
        · exact nomatch hevent
      · rintro ⟨-, -, rfl, rfl⟩
        exact .inl ⟨rfl, rfl⟩
    | data bytes isStderr =>
      have hexec : (∃ command, HandlerEvent.execRequest command ∈ served ++ [.data bytes isStderr]) ↔
          ∃ command, HandlerEvent.execRequest command ∈ served := by simp
      have hafter : (step (.data bytes isStderr) (stateAfter step served {})).2 =
          { stateAfter step served {} with
            inputBuffer := (stateAfter step served {}).inputBuffer ++ bytes } := rfl
      rw [hexec, hafter]
      constructor
      · rintro (⟨hevent, -⟩ | ⟨_, _, earlier, hevent, hdue, rfl⟩)
        · exact nomatch hevent
        · obtain ⟨rfl, rfl⟩ := HandlerEvent.data.inj hevent
          obtain ⟨hexec, hran, rfl, rfl⟩ := (ih earlier).mp hdue
          exact ⟨hexec, hran, rfl, rfl⟩
      · rintro ⟨hexec, hran, rfl, rfl⟩
        exact .inr ⟨bytes, isStderr, _, rfl, (ih _).mpr ⟨hexec, hran, rfl, rfl⟩, rfl⟩
    | eof outcome =>
      have hran : (step (.eof outcome) (stateAfter step served {})).2.ran = true := by
        show (onEof outcome _).2.ran = true
        unfold onEof
        split_ifs with hran
        · exact hran
        · rfl
      rw [hran]
      refine iff_of_false ?_ fun h ↦ nomatch h.2.1
      rintro (⟨hevent, -⟩ | ⟨_, _, _, hevent, -⟩) <;> exact nomatch hevent

/-- Only an end of file makes the handler do anything. -/
theorem callsAt_of_ne_eof (served : List HandlerEvent) {event : HandlerEvent}
    (h : ∀ outcome, event ≠ .eof outcome) : callsAt served event = [] := by
  cases event with
  | execRequest command => rfl
  | data bytes isStderr => rfl
  | eof outcome => exact absurd rfl (h outcome)

/-- The calls at an end of file. -/
theorem callsAt_eof (served : List HandlerEvent) (outcome : RunnerOutcome) :
    callsAt served (.eof outcome) =
      if (stateAfter step served {}).ran then []
      else
        .run (stateAfter step served {}).command (stateAfter step served {}).inputBuffer ::
          (match outcome with
            | .returns code out err => sendResult code out err
            | .throws => []) := by
  have hrunner := hasRunner_stateAfter served
  show (onEof outcome _).1 = _
  unfold onEof
  split_ifs
  · rfl
  · rw [hrunner]
    cases outcome <;> rfl

/-- What is due is answered, if the runner returns. -/
theorem callsAt_of_due {served : List HandlerEvent} {command input : Bytes}
    (hdue : Due served command input) (outcome : RunnerOutcome) :
    callsAt served (.eof outcome) = .run command input ::
      (match outcome with
        | .returns code out err => sendResult code out err
        | .throws => []) := by
  obtain ⟨-, hran, rfl, rfl⟩ := (due_iff served command input).mp hdue
  rw [callsAt_eof, if_neg (by rw [hran]; exact Bool.false_ne_true)]

/-- Behind a request, an end of file that nothing is due at does nothing. -/
theorem callsAt_of_not_due {served : List HandlerEvent}
    (hexec : ∃ command, .execRequest command ∈ served)
    (hdue : ∀ command input, ¬ Due served command input) (outcome : RunnerOutcome) :
    callsAt served (.eof outcome) = [] := by
  rw [callsAt_eof]
  refine if_pos ?_
  by_contra hran
  exact hdue _ _ ((due_iff served _ _).mpr ⟨hexec, by simpa using hran, rfl, rfl⟩)

theorem sendResult_spec (code : ℤ) (out err : Bytes) :
    ∃ output, sendResult code out err = output ++ [.sendExitStatus code, .sendEof] ∧
      ∀ call ∈ output, call.IsOutput := by
  refine ⟨_, rfl, fun call hcall ↦ ?_⟩
  rcases List.mem_append.mp hcall with h | h
  · split_ifs at h
    · rw [List.mem_singleton.mp h]
      trivial
    · exact nomatch h
  · split_ifs at h
    · rw [List.mem_singleton.mp h]
      trivial
    · exact nomatch h

/-- A handler that answers as it should has not run before the first request. -/
theorem ran_of_runsCommands {events : List HandlerEvent} (h : RunsCommands events)
    {served : List HandlerEvent} (hserved : served <+: events)
    (hexec : ∀ command, .execRequest command ∉ served) :
    (stateAfter step served {}).ran = false := by
  induction served using List.reverseRecOn with
  | nil => rfl
  | append_singleton served event ih =>
    have hbefore : ∀ command, .execRequest command ∉ served := fun command hmem ↦
      hexec command (List.mem_append_left _ hmem)
    have hran := ih ((List.prefix_append _ _).trans hserved) hbefore
    cases event with
    | execRequest command =>
      exact absurd (List.mem_append_right _ List.mem_cons_self) (hexec command)
    | data bytes isStderr =>
      rw [stateAfter_concat]
      exact hran
    | eof outcome =>
      have hidle := (h.answers served _ hserved).idle fun _ command input _ hdue ↦
        (((due_iff served command input).mp hdue).1).elim hbefore
      rw [callsAt_eof, if_neg (by rw [hran]; exact Bool.false_ne_true)] at hidle
      exact nomatch hidle

end CommandHandler

open CommandHandler in
/-- For every order of events: the handler runs what is asked for if and only if each end of
file has a request before it, and the runner returns whenever something is due. -/
theorem runsCommands_iff (events : List HandlerEvent) :
    RunsCommands events ↔ ∀ served outcome, served ++ [.eof outcome] <+: events →
      (∃ command, .execRequest command ∈ served) ∧
        ∀ command input, Due served command input → outcome ≠ .throws := by
  constructor
  · intro h served outcome hserved
    have hanswers := h.answers served _ hserved
    constructor
    · by_contra hexec
      have hbefore : ∀ command, .execRequest command ∉ served := not_exists.mp hexec
      have hran := ran_of_runsCommands h ((List.prefix_append _ _).trans hserved) hbefore
      have hidle := hanswers.idle fun _ command input _ hdue ↦
        (((due_iff served command input).mp hdue).1).elim hbefore
      rw [callsAt_eof, if_neg (by rw [hran]; exact Bool.false_ne_true)] at hidle
      exact nomatch hidle
    · rintro command input hdue rfl
      obtain ⟨output, code, hcalls, -⟩ := hanswers.due _ command input rfl hdue
      rw [callsAt_of_due hdue] at hcalls
      exact List.append_ne_nil_of_right_ne_nil output (List.cons_ne_nil _ _)
        (List.cons.inj hcalls).2.symm
  · intro h
    have hanswers : ∀ served event, served ++ [event] <+: events →
        Answers served event (callsAt served event) := by
      intro served event hserved
      refine ⟨?_, fun hidle ↦ ?_⟩
      · rintro outcome command input rfl hdue
        rw [callsAt_of_due hdue]
        cases outcome with
        | returns code out err =>
          obtain ⟨output, hsent, houtput⟩ := sendResult_spec code out err
          exact ⟨output, code, congrArg (.run command input :: ·) hsent, houtput⟩
        | throws => exact absurd rfl ((h served _ hserved).2 command input hdue)
      · by_cases heof : ∃ outcome, event = .eof outcome
        · obtain ⟨outcome, rfl⟩ := heof
          exact callsAt_of_not_due (h served _ hserved).1
            (fun command input ↦ hidle outcome command input rfl) outcome
        · exact callsAt_of_ne_eof served (not_exists.mp heof)
    refine ⟨hanswers, fun served outcome more other hserved _ hran ↦ ?_⟩
    by_contra hexec
    refine hran ((hanswers _ _ ?_).idle fun _ command input _ hdue ↦ hexec (exec_of_due hdue))
    rw [List.append_assoc]
    exact hserved

/-- A client that ends its input without asking for anything: the runner is invoked all the
same. -/
theorem runs_unasked :
    CommandHandler.callsAt [] (.eof (.returns 0 [] [])) = [.run [] [], .sendExitStatus 0, .sendEof] ∧
      ¬ RunsCommands [.eof (.returns 0 [] [])] := by
  refine ⟨rfl, fun h ↦ ?_⟩
  have hidle := (h.answers [] _ List.prefix_rfl).idle fun _ command input _ ↦
    not_due_nil command input
  exact nomatch hidle

end LibSshpp.Server
