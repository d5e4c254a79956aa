import LibSshpp.SftpServer.Subsystem

/-!
One walk through the message loop for every property of it. A property is given by
the assertions that hold in the stages of a request, and `RequestRules` asks for each
call the server can make, under what the server has checked before it, that the call
leads from one stage to the next. `RequestRules.request` then goes through the sixteen
message types once.
-/

set_option autoImplicit false
set_option relaxedAutoImplicit false

namespace LibSshpp.SftpServer

open Posix Sftp Program

/-! ### The calls -/

/-- The world after a call that left the file system `fs`. -/
def World.called (world : World) (call : PosixCall) (fs : FileSystem) (touched : List Loc) :
    World :=
  { world.dropFault with fs := fs }.log (.called call touched)

/-- The fault makes its call fail. -/
def Fault.fails : Fault → Bool
  | .fail _ => true
  | _ => false

theorem perform_of_fails {α : Type} {call : PosixCall} {op : World → Except Errno (Done α)}
    {world : World} (h : world.fault.fails = true) :
    ∃ error, perform call op world = (.error error, world.called call world.fs []) := by
  unfold perform
  cases hfault : world.fault with
  | fail error => exact ⟨error, rfl⟩
  | none => exact nomatch hfault ▸ h
  | short count => exact nomatch hfault ▸ h

/-- A call that no fault stops comes out as the file system lets it. -/
theorem perform_of_passes {α : Type} {call : PosixCall} {op : World → Except Errno (Done α)}
    {world : World} (h : world.fault.fails = false) :
    perform call op world =
      match op world with
      | .error error => (.error error, world.called call world.fs [])
      | .ok done => (.ok done.value, world.called call done.fs done.touched) := by
  unfold perform
  cases hfault : world.fault with
  | fail error => exact nomatch hfault ▸ h
  | none => cases op world <;> rfl
  | short count => cases op world <;> rfl

/-- A call to the kernel fails, or has its effect. -/
theorem perform_triple {α : Type} {call : PosixCall} {op : World → Except Errno (Done α)}
    {pre : World → Prop} {post : Except Errno α → World → Prop}
    (herror : ∀ world error, pre world → post (.error error) (world.called call world.fs []))
    (hok : ∀ world done, pre world → op world = .ok done →
      post (.ok done.value) (world.called call done.fs done.touched)) :
    Triple pre (perform call op) post := by
  intro world hpre
  unfold perform
  split
  · exact herror world _ hpre
  · split
    · exact herror world _ hpre
    · next done hdone => exact hok world done hpre hdone

/-- What `post` says of a value once it has been entered in a table of the process. -/
def onceEntered {α β : Type} (enter : α → World → β × World)
    (post : Except Errno β → World → Prop) : Except Errno α → World → Prop
  | .error error, world => post (.error error) world
  | .ok value, world => post (.ok (enter value world).1) (enter value world).2

theorem openFile_triple {path : Path} {flags : OpenFlags} {mode : UInt32} {pre : World → Prop}
    {post : Except Errno ℤ → World → Prop}
    (herror : ∀ world error, pre world →
      post (.error error) (world.called (.openFile path flags) world.fs []))
    (hok : ∀ world done, pre world → world.fs.openFile path flags mode = .ok done →
      let opened := world.called (.openFile path flags) done.fs done.touched
      post (.ok (newDescriptor done.value opened).1) (newDescriptor done.value opened).2) :
    Triple pre (openFile path flags mode) post := by
  have hopen : Triple pre
      (perform (.openFile path flags) fun world ↦ world.fs.openFile path flags mode)
      (onceEntered newDescriptor post) := perform_triple herror hok
  refine Triple.bind hopen fun result ↦ ?_
  cases result with
  | error error => exact Triple.pure fun _ h ↦ h
  | ok file => exact fun _ h ↦ h

theorem opendir_triple {path : Path} {pre : World → Prop} {post : Except Errno ℕ → World → Prop}
    (herror : ∀ world error, pre world →
      post (.error error) (world.called (.opendir path) world.fs []))
    (hok : ∀ world done, pre world → world.fs.opendir path = .ok done →
      let opened := world.called (.opendir path) done.fs done.touched
      post (.ok (newStream done.value opened).1) (newStream done.value opened).2) :
    Triple pre (opendir path) post := by
  have hopen : Triple pre (perform (.opendir path) fun world ↦ world.fs.opendir path)
      (onceEntered newStream post) := perform_triple herror hok
  refine Triple.bind hopen fun result ↦ ?_
  cases result with
  | error error => exact Triple.pure fun _ h ↦ h
  | ok stream => exact fun _ h ↦ h

/-- A directory read fails, or takes the next name. -/
theorem readdir_triple {address : ℕ} {pre : World → Prop} {post : Option Name → World → Prop}
    (hfail : ∀ world, pre world → post none (world.called (.readdir address) world.fs []))
    (hread : ∀ world stream, pre world → world.streams.lookup address = some stream →
      post stream.pending.head?
        ({ world.dropFault with
          streams := (address, { stream with pending := stream.pending.tail }) ::
            world.streams.filter (·.1 ≠ address) }.log
          (.called (.readdir address) [stream.loc]))) :
    Triple pre (readdir address) post := by
  intro world hpre
  unfold readdir
  split
  · exact hfail world hpre
  · exact hfail world hpre
  · next stream hstream _ => exact hread world stream hpre hstream

theorem alloc_triple {table : HandleTable} {entry : HandleEntry} {pre : World → Prop}
    {post : Option Bytes → World → Prop} (hfail : ∀ world, pre world → post none world.dropFault)
    (hstore : ∀ world slot, pre world → slot < table.size → world.slots slot = none →
      post (some (table.encode slot))
        { world.dropFault with slots := Function.update world.slots slot (some entry) }) :
    Triple pre (table.sftpHandleAlloc entry) post := by
  intro world hpre
  unfold HandleTable.sftpHandleAlloc
  split
  · exact hfail world hpre
  · split
    · exact hfail world hpre
    · next slot hpick =>
      exact hstore world slot hpre (table.pick_free hpick).1 (table.pick_free hpick).2

/-! ### What has been added to the trace -/

/-- The events of one turn of the loop. -/
theorem serveMessage_trace {table : HandleTable} {options : Options} {message : ClientMessage}
    {world : World} {events : List Event}
    (h : (serveRequest table options message (world.log (.received message))).2.trace =
      (world.log (.received message)).trace ++ events) :
    (serveMessage table options message world).2.trace =
      world.trace ++ .received message :: (events ++ [.freed message]) :=
  calc (serveMessage table options message world).2.trace
      = (serveRequest table options message (world.log (.received message))).2.trace ++
          [.freed message] := rfl
    _ = world.trace ++ .received message :: (events ++ [.freed message]) := by
        rw [h]
        simp [World.log]

/-- Every event since `start` is allowed. -/
def Since (allowed : Event → Prop) (start world : World) : Prop :=
  ∃ events, world.trace = start.trace ++ events ∧ ∀ event ∈ events, allowed event

section Since

variable {allowed : Event → Prop} {start world : World}

theorem since_refl (allowed : Event → Prop) (start : World) : Since allowed start start :=
  ⟨[], by simp, by simp⟩

/-- A further event. -/
theorem Since.concat (h : Since allowed start world) {event : Event} (hevent : allowed event)
    {after : World} (htrace : after.trace = world.trace ++ [event]) :
    Since allowed start after := by
  obtain ⟨events, hevents, hallowed⟩ := h
  refine ⟨events ++ [event], ?_, ?_⟩
  · rw [htrace, hevents, List.append_assoc]
  · intro other hother
    rcases List.mem_append.mp hother with hother | hother
    · exact hallowed other hother
    · rw [List.mem_singleton.mp hother]
      exact hevent

theorem perform_since {α : Type} {call : PosixCall} (op : World → Except Errno (Done α))
    (hcall : ∀ touched, allowed (.called call touched)) :
    Keeps (Since allowed start) (perform call op) :=
  perform_triple (fun _ _ h ↦ h.concat (hcall _) rfl) fun _ _ h _ ↦ h.concat (hcall _) rfl

theorem weaklyCanonical_since (path : Path) :
    Keeps (Since allowed start) (weaklyCanonical path) := by
  intro world h
  unfold weaklyCanonical
  split <;> exact h

theorem closeHandle_since (hclosed : ∀ resource, allowed (.closed resource))
    (entry : HandleEntry) : Keeps (Since allowed start) (closeHandle entry) := by
  refine Keeps.ite (fun _ ↦ ?_) fun _ ↦ ?_
  · exact Keeps.ite (fun _ _ h ↦ h.concat (hclosed _) rfl) fun _ ↦ Keeps.pure _
  · exact Keeps.ite (fun _ _ h ↦ h.concat (hclosed _) rfl) fun _ ↦ Keeps.pure _

theorem remove_since (table : HandleTable) (entry : HandleEntry) :
    Keeps (Since allowed start) (table.sftpHandleRemove entry) := by
  intro world h
  unfold HandleTable.sftpHandleRemove
  split <;> exact h

end Since

/-! ### The stages of a request -/

/-- The world has not changed since `start` but for its trace and the faults to come. -/
structure Quiet (start world : World) : Prop where
  fs : world.fs = start.fs
  fds : world.fds = start.fds
  streams : world.streams = start.streams
  slots : world.slots = start.slots
  nextAddress : world.nextAddress = start.nextAddress

theorem quiet_refl (start : World) : Quiet start start := ⟨rfl, rfl, rfl, rfl, rfl⟩

/-- A client's path relative to the root. -/
def relativePath (sftpPath : Bytes) : Path :=
  let clean := sftpPath.dropWhile (· = 0x2f)
  if clean = [] then Path.ofBytes [0x2e] else Path.ofBytes clean

/-- `resolve_sftp_path` accepts the path and returns `canon`. -/
def Resolves (fs : FileSystem) (root : Path) (sftpPath : Bytes) (canon : Path) : Prop :=
  ∃ canonRoot, fs.weaklyCanonical root = .ok canonRoot ∧
    fs.weaklyCanonical (root.join (relativePath sftpPath)) = .ok canon ∧
      canonRoot.elements <+: canon.elements

/-- The entry that a message's handle leads to. -/
def Held (table : HandleTable) (message : ClientMessage) (start : World)
    (entry : HandleEntry) : Prop :=
  (table.decode message.handle).bind start.slots = some entry

/-- The entry the server makes of a resource. -/
def Resource.entry : Resource → Path → ℕ → HandleEntry
  | .fd number, path, address => { address, isDir := false, fd := number, path }
  | .stream dir, path, address => { address, isDir := true, dir, path }

/-- What is asserted before the reply to a request; when a resource has been opened, put
into an entry, and the entry put into the table; in the course of a READDIR request;
and after the reply. -/
structure Stages where
  pending : World → Prop
  fresh : Resource → Path → World → Prop
  holding : HandleEntry → World → Prop
  granted : Bytes → World → Prop
  reading : World → Prop
  named : Name → Prop
  done : World → Prop

/-- An assertion in a world that is as it was when the request came. -/
def At (start : World) (assertion : World → Prop) (world : World) : Prop :=
  assertion world ∧ Quiet start world

theorem keepsAt {α : Type} {start : World} {assertion : World → Prop} {program : ServerM α}
    (h : Keeps assertion program) :
    Triple (At start assertion) program fun _ ↦ assertion :=
  h.mono (fun _ hworld ↦ hworld.1) fun _ _ hworld ↦ hworld

/-- A reply that can be the last call for a message of the type. Only READDIR requests are
answered with a list of names. -/
def Reply.concludes (type : UInt8) : Reply → Bool
  | .namesAdd _ _ _ => false
  | .names => type = fxpReaddir
  | _ => true

/-- What each call of the server has to do with the stages of a request. -/
structure RequestRules (table : HandleTable) (options : Options) (message : ClientMessage)
    (start : World) (stages : Stages) : Prop where
  canonical : ∀ path, Keeps stages.pending (weaklyCanonical path)
  reply : ∀ answer, answer.concludes message.type = true → (∀ handle, answer ≠ .handle handle) →
    Triple stages.pending (reply answer) fun _ ↦ stages.done
  lstat : ∀ {canon}, Resolves start.fs options.root message.path canon →
    Triple (At start stages.pending) (lstat canon) fun _ ↦ stages.pending
  stat : ∀ {canon}, Resolves start.fs options.root message.path canon →
    Triple (At start stages.pending) (stat canon) fun _ ↦ stages.pending
  readlink : ∀ {canon}, Resolves start.fs options.root message.path canon →
    Triple (At start stages.pending) (readlink canon 4095) fun _ ↦ stages.pending
  statEntry : ∀ {entry}, Held table message start entry → entry.isDir = true →
    Triple (At start stages.pending) (SftpServer.stat entry.path) fun _ ↦ stages.pending
  fstat : ∀ {entry}, Held table message start entry → entry.isDir = false →
    Triple (At start stages.pending) (fstat entry.fd) fun _ ↦ stages.pending
  pread : ∀ {entry}, Held table message start entry → entry.isDir = false → ∀ size offset,
    Triple (At start stages.pending) (pread entry.fd size offset) fun _ ↦ stages.pending
  pwrite : options.readOnly = false → ∀ {entry}, Held table message start entry →
    entry.isDir = false → ∀ data offset,
      Triple (At start stages.pending) (pwrite entry.fd data offset) fun _ ↦ stages.pending
  read : message.type = fxpReaddir → ∀ {entry}, Held table message start entry →
    entry.isDir = true → ∀ world, At start stages.pending world → stages.reading world
  readdir : message.type = fxpReaddir → ∀ {entry}, Held table message start entry →
    entry.isDir = true →
      Triple stages.reading (readdir entry.dir) fun name world ↦
        stages.reading world ∧ ∀ found, name = some found → stages.named found
  lstatChild : message.type = fxpReaddir → ∀ {entry}, Held table message start entry →
    entry.isDir = true → ∀ name, stages.named name →
      Keeps stages.reading (SftpServer.lstat (entry.path.join (Path.ofBytes name)))
  collect : ∀ name longname attr,
    Keeps stages.reading (SftpServer.reply (.namesAdd name longname attr))
  listed : ∀ world, stages.reading world → stages.pending world
  openFile : (options.readOnly = true → message.wantsWrite = false) → ∀ {canon},
    Resolves start.fs options.root message.path canon →
      Triple (At start stages.pending)
        (openFile canon (posixOpenFlags message.flags) (message.mode 0o644)) fun result world ↦
          match result with
          | .error _ => stages.pending world
          | .ok fd => stages.fresh (.fd fd) canon world
  opendir : ∀ {canon}, Resolves start.fs options.root message.path canon →
    Triple (At start stages.pending) (opendir canon) fun result world ↦
      match result with
      | .error _ => stages.pending world
      | .ok address => stages.fresh (.stream address) canon world
  newAddress : ∀ resource path,
    Triple (stages.fresh resource path) newAddress fun address ↦
      stages.holding (resource.entry path address)
  alloc : ∀ entry, Triple (stages.holding entry) (table.sftpHandleAlloc entry) fun result world ↦
    match result with
    | none => stages.holding entry world
    | some handle => stages.granted handle world
  abandon : ∀ entry, Triple (stages.holding entry) (closeHandle entry) fun _ ↦ stages.pending
  grant : ∀ handle,
    Triple (stages.granted handle) (SftpServer.reply (.handle handle)) fun _ ↦ stages.done
  release : message.type = fxpClose → ∀ {entry}, Held table message start entry →
    Triple (At start stages.pending) (do table.sftpHandleRemove entry; closeHandle entry)
      fun _ ↦ stages.pending
  unlink : options.readOnly = false → ∀ {canon},
    Resolves start.fs options.root message.path canon →
      Triple (At start stages.pending) (unlink canon) fun _ ↦ stages.pending
  mkdir : message.type = fxpMkdir → options.readOnly = false → ∀ {canon},
    Resolves start.fs options.root message.path canon →
      Triple (At start stages.pending) (mkdir canon (message.mode 0o755)) fun _ ↦ stages.pending
  rmdir : message.type = fxpRmdir → options.readOnly = false → ∀ {canon},
    Resolves start.fs options.root message.path canon →
      Triple (At start stages.pending) (rmdir canon) fun _ ↦ stages.pending
  rename : message.type = fxpRename → options.readOnly = false → ∀ {source dest},
    Resolves start.fs options.root message.path source →
      Resolves start.fs options.root message.dataPath dest →
        Triple (At start stages.pending) (rename source dest) fun _ ↦ stages.pending
  symlink : message.type = fxpSymlink → options.readOnly = false → ∀ {canon},
    Resolves start.fs options.root message.dataPath canon →
      Triple (At start stages.pending) (symlink message.path canon) fun _ ↦ stages.pending

/-- What the loop does before it reads the next name, and with it. -/
def readOn (dir : ℕ) (path : Path) (fuel added : ℕ) : ServerM Unit := do
  match ← readdir dir with
  | none => pure ()
  | some next => readdirLoop dir path fuel next added

namespace RequestRules

variable {table : HandleTable} {options : Options} {message : ClientMessage} {start : World}
  {stages : Stages} (rules : RequestRules table options message start stages)

include rules

theorem replyStatus (code : StatusCode) (text : String) :
    Triple stages.pending (replyStatus code text) fun _ ↦ stages.done :=
  rules.reply _ rfl fun _ ↦ by simp

/-- A request that is answered at once. -/
theorem refuse (code : StatusCode) (text : String) :
    Triple (At start stages.pending) (SftpServer.replyStatus code text) fun _ ↦ stages.done :=
  (rules.replyStatus code text).mono (fun _ h ↦ h.1) fun _ _ h ↦ h

/-! ### Resolving paths -/

theorem weaklyCanonical (path : Path) :
    Triple (At start stages.pending) (weaklyCanonical path) fun result world ↦
      At start stages.pending world ∧
        ∀ canon, result = .ok canon → start.fs.weaklyCanonical path = .ok canon := by
  intro world ⟨hpending, hquiet⟩
  refine ⟨⟨rules.canonical path world hpending, ?_⟩, ?_⟩
  · unfold SftpServer.weaklyCanonical
    split <;> exact ⟨hquiet.fs, hquiet.fds, hquiet.streams, hquiet.slots, hquiet.nextAddress⟩
  · intro canon
    unfold SftpServer.weaklyCanonical
    split
    · exact fun h ↦ nomatch h
    · rw [hquiet.fs]
      exact id

theorem resolveSftpPath (sftpPath : Bytes) :
    Triple (At start stages.pending) (resolveSftpPath options.root sftpPath) fun result world ↦
      At start stages.pending world ∧
        ∀ canon, result = .ok canon → Resolves start.fs options.root sftpPath canon := by
  refine Triple.bind (rules.weaklyCanonical options.root) fun first ↦ Triple.of_fact fun hroot ↦ ?_
  cases first with
  | error error => exact Triple.pure fun _ h ↦ ⟨h, fun _ h ↦ nomatch h⟩
  | ok canonRoot =>
    refine Triple.bind (rules.weaklyCanonical _) fun second ↦ Triple.of_fact fun hpath ↦ ?_
    cases second with
    | error error => exact Triple.pure fun _ h ↦ ⟨h, fun _ h ↦ nomatch h⟩
    | ok canon =>
      refine Triple.ite (fun hroot' ↦ ?_) fun _ ↦ ?_
      · refine Triple.pure fun _ h ↦ ⟨h, fun other hother ↦ ?_⟩
        rw [← Except.ok.inj hother]
        exact ⟨canonRoot, hroot canonRoot rfl, hpath canon rfl, hroot'⟩
      · exact Triple.pure fun _ h ↦ ⟨h, fun _ h ↦ nomatch h⟩

theorem toClientPath (canon : Path) : Keeps stages.pending (toClientPath options.root canon) := by
  refine Keeps.bind (rules.canonical options.root) fun result ↦ ?_
  cases result with
  | error error => exact Keeps.pure _
  | ok canonRoot => exact Keeps.ite (fun _ ↦ Keeps.pure _) fun _ ↦ Keeps.pure _

/-- A request on a path: what follows a failure to resolve it, and what follows a
resolved path. -/
theorem onPath {sftpPath : Bytes} {next : Result Path → ServerM Unit}
    (hfailure : ∀ error, Triple stages.pending (next (.error error)) fun _ ↦ stages.done)
    (hnext : ∀ canon, Resolves start.fs options.root sftpPath canon →
      Triple (At start stages.pending) (next (.ok canon)) fun _ ↦ stages.done) :
    Triple (At start stages.pending)
      (SftpServer.resolveSftpPath options.root sftpPath >>= next) fun _ ↦ stages.done := by
  refine Triple.bind (rules.resolveSftpPath sftpPath) fun result ↦ Triple.of_fact fun hresult ↦ ?_
  cases result with
  | error error => exact (hfailure error).mono (fun _ h ↦ h.1) fun _ _ h ↦ h
  | ok canon => exact hnext canon (hresult canon rfl)

/-! ### The message types -/

theorem serveRealpath :
    Triple (At start stages.pending) (serveRealpath options message) fun _ ↦ stages.done := by
  refine rules.onPath (fun _ ↦ rules.replyStatus _ _) fun canon hcanon ↦ ?_
  refine Triple.bind (rules.lstat hcanon) fun st ↦ ?_
  refine Triple.bind (rules.toClientPath canon) fun clientPath ↦ ?_
  exact rules.reply _ rfl fun _ ↦ by simp

theorem serveStat :
    Triple (At start stages.pending) (serveStat options message) fun _ ↦ stages.done := by
  refine rules.onPath (fun _ ↦ rules.replyStatus _ _) fun canon hcanon ↦ ?_
  have hreplyAttr (attr : NativeAttributes) := rules.reply (.attr attr) rfl fun _ ↦ by simp
  refine Triple.ite (fun _ ↦ ?_) fun _ ↦ ?_
  · exact Triple.bindExcept (rules.lstat hcanon) (fun _ ↦ rules.replyStatus _ _)
      fun _ ↦ hreplyAttr _
  · exact Triple.bindExcept (rules.stat hcanon) (fun _ ↦ rules.replyStatus _ _)
      fun _ ↦ hreplyAttr _

omit rules in
/-- The lookup of a message's handle. -/
theorem onHandle {next : Option HandleEntry → ServerM Unit}
    (hmissing : Triple stages.pending (next none) fun _ ↦ stages.done)
    (hnext : ∀ entry, Held table message start entry →
      Triple (At start stages.pending) (next (some entry)) fun _ ↦ stages.done) :
    Triple (At start stages.pending) (table.sftpHandle message.handle >>= next)
      fun _ ↦ stages.done := by
  have hlookup : Triple (At start stages.pending) (table.sftpHandle message.handle)
      fun result world ↦ At start stages.pending world ∧
        ∀ entry, result = some entry → Held table message start entry := by
    refine fun world hworld ↦ ⟨hworld, fun entry hentry ↦ ?_⟩
    rw [Held, ← hworld.2.slots]
    exact hentry
  refine Triple.bind hlookup fun result ↦ Triple.of_fact fun hresult ↦ ?_
  cases result with
  | none => exact hmissing.mono (fun _ h ↦ h.1) fun _ _ h ↦ h
  | some entry => exact hnext entry (hresult entry rfl)

theorem serveFstat :
    Triple (At start stages.pending) (serveFstat table message) fun _ ↦ stages.done := by
  refine onHandle (rules.replyStatus _ _) fun entry hentry ↦ ?_
  have hreplyAttr (attr : NativeAttributes) := rules.reply (.attr attr) rfl fun _ ↦ by simp
  refine Triple.ite (fun hdir ↦ ?_) fun hdir ↦ ?_
  · exact Triple.bindExcept (rules.statEntry hentry hdir) (fun _ ↦ rules.replyStatus _ _)
      fun _ ↦ hreplyAttr _
  · exact Triple.bindExcept (rules.fstat hentry (by simpa using hdir))
      (fun _ ↦ rules.replyStatus _ _) fun _ ↦ hreplyAttr _

theorem replyHandle (entry : HandleEntry) :
    Triple (stages.holding entry) (replyHandle table entry) fun _ ↦ stages.done := by
  refine Triple.bind (rules.alloc entry) fun result ↦ ?_
  cases result with
  | none => exact Triple.bind (rules.abandon entry) fun _ ↦ rules.replyStatus _ _
  | some handle => exact rules.grant handle

theorem serveOpendir :
    Triple (At start stages.pending) (serveOpendir table options message) fun _ ↦ stages.done := by
  refine rules.onPath (fun _ ↦ rules.replyStatus _ _) fun canon hcanon ↦ ?_
  refine Triple.bind (rules.opendir hcanon) fun result ↦ ?_
  cases result with
  | error error => exact rules.replyStatus _ _
  | ok dir =>
    refine Triple.bind (rules.newAddress (.stream dir) canon) fun address ↦ ?_
    exact rules.replyHandle ((Resource.stream dir).entry canon address)

theorem readdirLoop (htype : message.type = fxpReaddir) {entry : HandleEntry}
    (hentry : Held table message start entry) (hdir : entry.isDir = true) (fuel : ℕ) (name : Name)
    (added : ℕ) (hname : stages.named name) :
    Keeps stages.reading (readdirLoop entry.dir entry.path fuel name added) := by
  induction fuel generalizing name added with
  | zero => exact Keeps.pure _
  | succ fuel ih =>
    have hnext : ∀ added, Keeps stages.reading (readOn entry.dir entry.path fuel added) := by
      intro added
      refine Triple.bind (rules.readdir htype hentry hdir) fun next ↦ Triple.of_fact fun hnext ↦ ?_
      cases next with
      | none => exact Keeps.pure _
      | some next => exact ih next added (hnext next rfl)
    refine Keeps.bind (rules.lstatChild htype hentry hdir name hname) fun st ↦ ?_
    cases st with
    | error error => exact hnext added
    | ok st =>
      refine Keeps.bind (rules.collect _ _ _) fun _ ↦ ?_
      exact Keeps.ite (fun _ ↦ Keeps.pure _) fun _ ↦ hnext (added + 1)

theorem serveReaddir (htype : message.type = fxpReaddir) :
    Triple (At start stages.pending) (serveReaddir table message) fun _ ↦ stages.done := by
  refine onHandle (rules.replyStatus _ _) fun entry hentry ↦ ?_
  refine Triple.ite (fun _ ↦ rules.refuse _ _) fun hdir ↦ ?_
  have hisDir : entry.isDir = true := by simpa using hdir
  have hread := (rules.readdir htype hentry hisDir).mono (rules.read htype hentry hisDir)
    fun _ _ h ↦ h
  refine Triple.bind hread fun name ↦ Triple.of_fact fun hname ↦ ?_
  cases name with
  | none => exact (rules.replyStatus _ _).mono rules.listed fun _ _ h ↦ h
  | some name =>
    have hpending : Keeps stages.reading (pendingNames entry.dir) := fun _ h ↦ h
    refine Triple.bind hpending fun pending ↦ ?_
    refine Triple.bind (rules.readdirLoop htype hentry hisDir _ _ _ (hname name rfl)) fun _ ↦ ?_
    have hconcludes : Reply.names.concludes message.type = true := decide_eq_true htype
    exact (rules.reply .names hconcludes fun _ ↦ by simp).mono rules.listed fun _ _ h ↦ h

/-- A request that a read-only server denies. -/
theorem unlessReadOnly {next : ServerM Unit}
    (hnext : options.readOnly = false →
      Triple (At start stages.pending) next fun _ ↦ stages.done) :
    Triple (At start stages.pending)
      (denyIfReadOnly options >>= fun denied ↦ if denied = true then pure () else next)
      fun _ ↦ stages.done := by
  unfold denyIfReadOnly
  split_ifs with hreadOnly
  · exact fun world hworld ↦ rules.refuse _ _ world hworld
  · exact hnext (by simpa using hreadOnly)

theorem openResolved (hflags : options.readOnly = true → message.wantsWrite = false) :
    Triple (At start stages.pending)
      (SftpServer.resolveSftpPath options.root message.path >>= fun result ↦
        match result with
        | .error _ => SftpServer.replyStatus .noSuchFile ""
        | .ok resolved =>
          SftpServer.openFile resolved (posixOpenFlags message.flags) (message.mode 0o644) >>=
            fun opened ↦
              match opened with
              | .error error =>
                SftpServer.replyStatus (if error = .enoent then .noSuchFile else .failure)
                  (strerror error)
              | .ok fd => do
                let address ← SftpServer.newAddress
                SftpServer.replyHandle table { address, isDir := false, fd, path := resolved })
      fun _ ↦ stages.done := by
  refine rules.onPath (fun _ ↦ rules.replyStatus _ _) fun canon hcanon ↦ ?_
  refine Triple.bind (rules.openFile hflags hcanon) fun result ↦ ?_
  cases result with
  | error error => exact rules.replyStatus _ _
  | ok fd =>
    refine Triple.bind (rules.newAddress (.fd fd) canon) fun address ↦ ?_
    exact rules.replyHandle ((Resource.fd fd).entry canon address)

theorem serveOpen :
    Triple (At start stages.pending) (serveOpen table options message) fun _ ↦ stages.done := by
  unfold SftpServer.serveOpen
  by_cases hwrite : message.wantsWrite = true
  · rw [if_pos hwrite]
    refine rules.unlessReadOnly fun hreadOnly ↦ ?_
    exact rules.openResolved fun h ↦ absurd (h.symm.trans hreadOnly) (by decide)
  · rw [if_neg hwrite]
    exact rules.openResolved fun _ ↦ by simpa using hwrite

theorem serveRead :
    Triple (At start stages.pending) (serveRead table message) fun _ ↦ stages.done := by
  refine onHandle (rules.replyStatus _ _) fun entry hentry ↦ ?_
  refine Triple.ite (fun _ ↦ rules.refuse _ _) fun hdir ↦ ?_
  refine Triple.bind (rules.pread hentry (by simpa using hdir) _ _) fun result ↦ ?_
  match result with
  | .error error => exact rules.replyStatus _ _
  | .ok [] => exact rules.replyStatus _ _
  | .ok (byte :: bytes) => exact rules.reply _ rfl fun _ ↦ by simp

theorem serveWrite :
    Triple (At start stages.pending) (serveWrite table options message) fun _ ↦ stages.done := by
  refine rules.unlessReadOnly fun hreadOnly ↦ ?_
  refine onHandle (rules.replyStatus _ _) fun entry hentry ↦ ?_
  refine Triple.ite (fun _ ↦ rules.refuse _ _) fun hdir ↦ ?_
  refine Triple.ite (fun _ ↦ rules.refuse _ _) fun _ ↦ ?_
  refine Triple.bindExcept (rules.pwrite hreadOnly hentry (by simpa using hdir) _ _)
    (fun _ ↦ ?_) fun _ ↦ ?_
  · exact rules.replyStatus _ _
  · exact rules.replyStatus _ _

theorem serveClose (htype : message.type = fxpClose) :
    Triple (At start stages.pending) (serveClose table message) fun _ ↦ stages.done := by
  have hreply := rules.replyStatus .ok ""
  refine onHandle hreply fun entry hentry ↦ ?_
  change Triple _ ((do table.sftpHandleRemove entry; closeHandle entry) >>=
    fun _ ↦ SftpServer.replyStatus .ok "") _
  exact Triple.bind (rules.release htype hentry) fun _ ↦ hreply

theorem serveRemove :
    Triple (At start stages.pending) (serveRemove options message) fun _ ↦ stages.done := by
  refine rules.unlessReadOnly fun hreadOnly ↦ ?_
  refine rules.onPath (fun _ ↦ rules.replyStatus _ _) fun canon hcanon ↦ ?_
  refine Triple.bindExcept (rules.unlink hreadOnly hcanon) (fun _ ↦ ?_) fun _ ↦ ?_
  · exact rules.replyStatus _ _
  · exact rules.replyStatus _ _

theorem serveMkdir (htype : message.type = fxpMkdir) :
    Triple (At start stages.pending) (serveMkdir options message) fun _ ↦ stages.done := by
  refine rules.unlessReadOnly fun hreadOnly ↦ ?_
  refine rules.onPath (fun _ ↦ rules.replyStatus _ _) fun canon hcanon ↦ ?_
  refine Triple.bindExcept (rules.mkdir htype hreadOnly hcanon) (fun _ ↦ ?_) fun _ ↦ ?_
  · exact rules.replyStatus _ _
  · exact rules.replyStatus _ _

theorem serveRmdir (htype : message.type = fxpRmdir) :
    Triple (At start stages.pending) (serveRmdir options message) fun _ ↦ stages.done := by
  refine rules.unlessReadOnly fun hreadOnly ↦ ?_
  refine rules.onPath (fun _ ↦ rules.replyStatus _ _) fun canon hcanon ↦ ?_
  refine Triple.bindExcept (rules.rmdir htype hreadOnly hcanon) (fun _ ↦ ?_) fun _ ↦ ?_
  · exact rules.replyStatus _ _
  · exact rules.replyStatus _ _

theorem serveRename (htype : message.type = fxpRename) :
    Triple (At start stages.pending) (serveRename options message) fun _ ↦ stages.done := by
  refine rules.unlessReadOnly fun hreadOnly ↦ ?_
  refine Triple.bind (rules.resolveSftpPath message.path) fun source ↦
    Triple.of_fact fun hsource ↦ ?_
  refine Triple.bind (rules.resolveSftpPath message.dataPath) fun dest ↦
    Triple.of_fact fun hdest ↦ ?_
  cases source with
  | error error => exact rules.refuse _ _
  | ok source =>
    cases dest with
    | error error => exact rules.refuse _ _
    | ok dest =>
      refine Triple.bindExcept (rules.rename htype hreadOnly (hsource source rfl) (hdest dest rfl))
        (fun _ ↦ ?_) fun _ ↦ ?_
      · exact rules.replyStatus _ _
      · exact rules.replyStatus _ _

theorem serveReadlink :
    Triple (At start stages.pending) (serveReadlink options message) fun _ ↦ stages.done := by
  refine rules.onPath (fun _ ↦ rules.replyStatus _ _) fun canon hcanon ↦ ?_
  refine Triple.bindExcept (rules.readlink hcanon) (fun _ ↦ ?_) fun _ ↦ ?_
  · exact rules.replyStatus _ _
  · exact rules.reply _ rfl fun _ ↦ by simp

theorem serveSymlink (htype : message.type = fxpSymlink) :
    Triple (At start stages.pending) (serveSymlink options message) fun _ ↦ stages.done := by
  refine rules.unlessReadOnly fun hreadOnly ↦ ?_
  refine rules.onPath (fun _ ↦ rules.replyStatus _ _) fun canon hcanon ↦ ?_
  refine Triple.bindExcept (rules.symlink htype hreadOnly hcanon) (fun _ ↦ ?_) fun _ ↦ ?_
  · exact rules.replyStatus _ _
  · exact rules.replyStatus _ _

/-- What the rules promise of a whole request. -/
theorem request :
    Triple (At start stages.pending) (serveRequest table options message)
      fun _ ↦ stages.done := by
  refine Triple.ite (fun _ ↦ rules.serveRealpath) fun _ ↦ ?_
  refine Triple.ite (fun _ ↦ rules.serveStat) fun _ ↦ ?_
  refine Triple.ite (fun _ ↦ rules.serveFstat) fun _ ↦ ?_
  refine Triple.ite (fun _ ↦ rules.serveOpendir) fun _ ↦ ?_
  refine Triple.ite rules.serveReaddir fun _ ↦ ?_
  refine Triple.ite (fun _ ↦ rules.serveOpen) fun _ ↦ ?_
  refine Triple.ite (fun _ ↦ rules.serveRead) fun _ ↦ ?_
  refine Triple.ite (fun _ ↦ rules.serveWrite) fun _ ↦ ?_
  refine Triple.ite rules.serveClose fun _ ↦ ?_
  refine Triple.ite (fun _ ↦ rules.serveRemove) fun _ ↦ ?_
  refine Triple.ite rules.serveMkdir fun _ ↦ ?_
  refine Triple.ite rules.serveRmdir fun _ ↦ ?_
  refine Triple.ite rules.serveRename fun _ ↦ ?_
  refine Triple.ite (fun _ ↦ rules.serveReadlink) fun _ ↦ ?_
  refine Triple.ite rules.serveSymlink fun _ ↦ ?_
  exact rules.refuse _ _

end RequestRules

end LibSshpp.SftpServer
