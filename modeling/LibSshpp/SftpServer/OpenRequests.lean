import LibSshpp.SftpServer.ReadRequests

/-!
OPEN requests, and the FSTAT and CLOSE requests on the file that was opened. An OPEN is refused,
or it opens a file; then the file gets a handle, or its descriptor is closed again for want of a
place in the handle table.
-/

set_option autoImplicit false
set_option relaxedAutoImplicit false

namespace LibSshpp.SftpServer

open Posix Sftp Program

/-! ### What a request takes and answers -/

/-- Nothing has been answered since `start`. -/
def Unanswered (start world : World) : Prop := Since (fun event ↦ event.reply = none) start world

variable {table : HandleTable} {options : Options} {message : ClientMessage}
  {start world after : World}

theorem KeepsOpen.trans {middle : World} (h : KeepsOpen world middle)
    (hlater : KeepsOpen middle after) : KeepsOpen world after where
  fds := hlater.fds.trans h.fds
  slots := hlater.slots.trans h.slots
  faults fault hfault := h.faults fault (hlater.faults fault hfault)

theorem keepsOpen_refl (world : World) : KeepsOpen world world := ⟨rfl, rfl, fun _ h ↦ h⟩

/-- A request that ends with its one answer. -/
theorem answers_of_unanswered {answer : Reply}
    (hsince : Unanswered (start.log (.received message)) world)
    (h : serveRequest table options message (start.log (.received message)) =
      ((), world.log (.replied answer))) :
    answers table options message start = [answer] ∧
      (serveMessage table options message start).2 =
        (world.log (.replied answer)).log (.freed message) := by
  obtain ⟨events, htrace, hnone⟩ := hsince
  constructor
  · refine (answers_of_trace (events ++ [.replied answer]) h ?_).1.trans ?_
    · change world.trace ++ _ = _
      rw [htrace, List.append_assoc]
    · have hnothing : events.filterMap Event.reply = [] :=
        List.filterMap_eq_nil_iff.mpr hnone
      rw [List.filterMap_append, hnothing]
      rfl
  · change (serveRequest table options message (start.log (.received message))).2.log _ = _
    rw [h]

/-- Nothing has happened since `start` but that some of the faults to come are used up. -/
def Spends (start world : World) : Prop :=
  ∃ faults, world = { start with faults := faults } ∧ ∀ fault ∈ faults, fault ∈ start.faults

theorem Spends.dropFault (h : Spends start world) : Spends start world.dropFault := by
  obtain ⟨faults, rfl, hfaults⟩ := h
  exact ⟨faults.tail, rfl, fun fault hfault ↦ hfaults fault (List.mem_of_mem_tail hfault)⟩

theorem Spends.keepsOpen (h : Spends start world) : KeepsOpen start world := by
  obtain ⟨faults, rfl, hfaults⟩ := h
  exact ⟨rfl, rfl, hfaults⟩

theorem Spends.fs (h : Spends start world) : world.fs = start.fs := by
  obtain ⟨faults, rfl, -⟩ := h
  rfl

theorem Spends.unanswered (h : Spends start world) : Unanswered start world := by
  obtain ⟨faults, rfl, -⟩ := h
  exact since_refl _ _

theorem spends_weaklyCanonical (path : Path) :
    Triple (Spends start) (weaklyCanonical path) fun result world ↦ Spends start world ∧
      ∀ canon, result = .ok canon → start.fs.weaklyCanonical path = .ok canon := by
  intro world h
  unfold weaklyCanonical
  split
  · exact ⟨h.dropFault, fun _ h ↦ nomatch h⟩
  · exact ⟨h.dropFault, fun canon hcanon ↦ h.fs ▸ hcanon⟩

theorem spends_resolveSftpPath (root : Path) (sftpPath : Bytes) :
    Triple (Spends start) (resolveSftpPath root sftpPath) fun result world ↦ Spends start world ∧
      ∀ canon, result = .ok canon → Resolves start.fs root sftpPath canon := by
  refine Triple.bind (spends_weaklyCanonical root) fun first ↦ Triple.of_fact fun hroot ↦ ?_
  cases first with
  | error error => exact Triple.pure fun _ h ↦ ⟨h, fun _ h ↦ nomatch h⟩
  | ok canonRoot =>
    refine Triple.bind (spends_weaklyCanonical _) fun second ↦ Triple.of_fact fun hpath ↦ ?_
    cases second with
    | error error => exact Triple.pure fun _ h ↦ ⟨h, fun _ h ↦ nomatch h⟩
    | ok canon =>
      refine Triple.ite (fun hunder ↦ Triple.pure fun _ h ↦ ⟨h, fun other hother ↦ ?_⟩) fun _ ↦ ?_
      · rw [← Except.ok.inj hother]
        exact ⟨canonRoot, hroot canonRoot rfl, hpath canon rfl, hunder⟩
      · exact Triple.pure fun _ h ↦ ⟨h, fun _ h ↦ nomatch h⟩

/-! ### OPEN -/

/-- The server may open what an OPEN asks for, and the kernel opens it. -/
structure OpensTo (options : Options) (message : ClientMessage) (start : World) (canon : Path)
    (done : Done OpenFile) : Prop where
  allowed : options.readOnly = true → message.wantsWrite = false
  resolves : Resolves start.fs options.root message.path canon
  opens : start.fs.openFile canon (posixOpenFlags message.flags) (message.mode 0o644) = .ok done

/-- The file has a new descriptor, and its entry a slot that was free. -/
structure Places (table : HandleTable) (start : World) (slot : ℕ) (entry : HandleEntry)
    (file : OpenFile) (world : World) : Prop where
  inTable : slot < table.size
  free : start.slots slot = none
  isFile : entry.isDir = false
  valid : 0 ≤ entry.fd
  unused : entry.fd ∉ start.fds.map Prod.fst
  slots : world.slots = Function.update start.slots slot (some entry)
  fds : world.fds = (entry.fd, file) :: start.fds
  faults : ∀ fault ∈ world.faults, fault ∈ start.faults

/-- What an OPEN comes to. -/
inductive OpenOutcome (table : HandleTable) (options : Options) (message : ClientMessage)
    (start : World) : Reply → World → Prop
  | refused {code : StatusCode} {text : String} {world : World} (hcode : code ≠ .ok)
    (hfs : world.fs = start.fs) (hkeeps : KeepsOpen start world) :
    OpenOutcome table options message start (.status code text) world
  | abandoned {canon : Path} {done : Done OpenFile} {world : World}
    (hopens : OpensTo options message start canon done) (hfs : world.fs = done.fs)
    (hkeeps : KeepsOpen start world) :
    OpenOutcome table options message start (.status .failure "") world
  | placed {canon : Path} {done : Done OpenFile} {slot : ℕ} {entry : HandleEntry} {world : World}
    (hopens : OpensTo options message start canon done) (hfs : world.fs = done.fs)
    (hplaces : Places table start slot entry done.value world) :
    OpenOutcome table options message start (.handle (table.encode slot)) world

/-- The request has come to its one answer, which was made last. -/
def Concludes (outcome : Reply → World → Prop) (start world : World) : Prop :=
  ∃ answer before, world = before.log (.replied answer) ∧ Unanswered start before ∧
    outcome answer before

theorem concludes_reply {outcome : Reply → World → Prop} {pre : World → Prop} {answer : Reply}
    (h : ∀ world, pre world → Unanswered start world ∧ outcome answer world) :
    Triple pre (reply answer) fun _ ↦ Concludes outcome start :=
  fun world hpre ↦ ⟨answer, world, rfl, (h world hpre).1, (h world hpre).2⟩

/-- The file is open and its descriptor is new, but no handle leads to it yet. -/
structure Opened (start : World) (fd : ℤ) (done : Done OpenFile) (world : World) : Prop where
  fs : world.fs = done.fs
  slots : world.slots = start.slots
  valid : 0 ≤ fd
  unused : fd ∉ start.fds.map Prod.fst
  fds : world.fds = (fd, done.value) :: start.fds
  faults : ∀ fault ∈ world.faults, fault ∈ start.faults
  unanswered : Unanswered start world

theorem spends_openFile (canon : Path) (flags : OpenFlags) (mode : UInt32) :
    Triple (Spends start) (openFile canon flags mode) fun result world ↦
      match result with
      | .error _ => world.fs = start.fs ∧ KeepsOpen start world ∧ Unanswered start world
      | .ok fd => ∃ done, start.fs.openFile canon flags mode = .ok done ∧
          Opened start fd done world := by
  refine openFile_triple (fun world _ h ↦ ?_) fun world done h hdone ↦ ?_
  · exact ⟨h.fs, h.keepsOpen.trans (keepsOpen_called world _ _ _), h.unanswered.concat rfl rfl⟩
  · have hkeeps := h.keepsOpen.trans
      (keepsOpen_called world (.openFile canon flags) done.fs done.touched)
    refine ⟨done, h.fs ▸ hdone, rfl, hkeeps.slots, Int.natCast_nonneg _, ?_, ?_, hkeeps.faults, ?_⟩
    · rw [← hkeeps.fds]
      exact newDescriptor_notMem done.value _
    · exact congrArg (List.cons _) hkeeps.fds
    · have hcalled : Unanswered start (world.called (.openFile canon flags) done.fs done.touched) :=
        h.unanswered.concat rfl rfl
      exact hcalled.concat rfl rfl

/-- A descriptor that was opened last is gone without it. -/
theorem filter_descriptor {fds : List (ℤ × OpenFile)} {fd : ℤ} (file : OpenFile)
    (hunused : fd ∉ fds.map Prod.fst) : ((fd, file) :: fds).filter (·.1 ≠ fd) = fds := by
  rw [List.filter_cons_of_neg (by simp)]
  refine List.filter_eq_self.mpr fun other hother ↦ ?_
  have hne : other.1 ≠ fd := fun heq ↦ hunused (heq ▸ List.mem_map_of_mem hother)
  simpa using hne

theorem close_opened {fd : ℤ} {done : Done OpenFile} (h : Opened start fd done world) (path : Path)
    (address : ℕ) :
    let closed := (closeHandle { address, isDir := false, fd, path } world).2
    closed.fs = done.fs ∧ KeepsOpen start closed ∧ Unanswered start closed := by
  have hclose : (closeHandle { address, isDir := false, fd, path } world).2 =
      (close fd world).2 := by
    unfold closeHandle
    rw [if_neg Bool.false_ne_true, if_pos h.valid]
  have hfds : (close fd world).2.fds = start.fds := by
    change world.fds.filter (·.1 ≠ fd) = start.fds
    rw [h.fds, filter_descriptor done.value h.unused]
  rw [hclose]
  exact ⟨h.fs, ⟨hfds, h.slots, h.faults⟩, h.unanswered.concat rfl rfl⟩

theorem concludes_replyHandle {canon : Path} {done : Done OpenFile} {fd : ℤ}
    (hopens : OpensTo options message start canon done) (address : ℕ) :
    Triple (Opened start fd done)
      (replyHandle table { address, isDir := false, fd, path := canon }) fun _ ↦
        Concludes (OpenOutcome table options message start) start := by
  have halloc : Triple (Opened start fd done)
      (table.sftpHandleAlloc { address, isDir := false, fd, path := canon }) fun result world ↦
        (result = none → Opened start fd done world) ∧
          ∀ handle, result = some handle → Unanswered start world ∧
            OpenOutcome table options message start (.handle handle) world := by
    refine alloc_triple (fun world h ↦ ⟨fun _ ↦ ?_, fun _ h ↦ by cases h⟩)
      fun world slot h hslot hfree ↦ ⟨fun h ↦ (by cases h), fun handle hhandle ↦ ?_⟩
    · exact ⟨h.fs, h.slots, h.valid, h.unused, h.fds,
        fun fault hfault ↦ h.faults fault (List.mem_of_mem_tail hfault), h.unanswered⟩
    · let entry : HandleEntry := { address, isDir := false, fd, path := canon }
      have hplaces : Places table start slot entry done.value { world.dropFault with
          slots := Function.update world.slots slot (some entry) } :=
        ⟨hslot, h.slots ▸ hfree, rfl, h.valid, h.unused,
          congrArg (Function.update · slot (some entry)) h.slots, h.fds,
          fun fault hfault ↦ h.faults fault (List.mem_of_mem_tail hfault)⟩
      obtain rfl := Option.some.inj hhandle
      exact ⟨h.unanswered, .placed hopens h.fs hplaces⟩
  refine Triple.bind halloc fun result ↦ ?_
  cases result with
  | none =>
    have hclose : Triple (Opened start fd done)
        (closeHandle { address, isDir := false, fd, path := canon }) fun _ world ↦
          world.fs = done.fs ∧ KeepsOpen start world ∧ Unanswered start world :=
      fun world h ↦ close_opened h canon address
    exact Triple.bind (hclose.mono (fun _ h ↦ h.1 rfl) fun _ _ h ↦ h) fun _ ↦
      concludes_reply fun _ h ↦ ⟨h.2.2, .abandoned hopens h.1 h.2.1⟩
  | some handle => exact concludes_reply fun _ h ↦ h.2 handle rfl

/-- What an OPEN does once it is allowed. -/
def openResolved (table : HandleTable) (options : Options) (message : ClientMessage) :
    ServerM Unit := do
  match ← resolveSftpPath options.root message.path with
  | .error _ => replyStatus .noSuchFile ""
  | .ok resolved =>
    match ← openFile resolved (posixOpenFlags message.flags) (message.mode 0o644) with
    | .error error =>
      replyStatus (if error = .enoent then .noSuchFile else .failure) (strerror error)
    | .ok fd =>
      let address ← newAddress
      replyHandle table { address, isDir := false, fd, path := resolved }

theorem serveOpen_of_allowed (h : options.readOnly = true → message.wantsWrite = false) :
    serveOpen table options message = openResolved table options message := by
  unfold serveOpen
  by_cases hwrite : message.wantsWrite = true
  · have hwritable : ¬ options.readOnly = true := fun hreadOnly ↦
      Bool.noConfusion ((h hreadOnly).symm.trans hwrite)
    rw [if_pos hwrite]
    unfold denyIfReadOnly
    rw [if_neg hwritable]
    rfl
  · rw [if_neg hwrite]
    rfl

theorem serveOpen_of_denied (hreadOnly : options.readOnly = true)
    (hwrite : message.wantsWrite = true) :
    serveOpen table options message =
      replyStatus .permissionDenied "read-only sftp root" := by
  unfold serveOpen denyIfReadOnly
  rw [if_pos hwrite, if_pos hreadOnly]
  rfl

theorem concludes_openResolved (hallowed : options.readOnly = true → message.wantsWrite = false) :
    Triple (Spends start) (openResolved table options message) fun _ ↦
      Concludes (OpenOutcome table options message start) start := by
  refine Triple.bind (spends_resolveSftpPath options.root message.path) fun result ↦
    Triple.of_fact fun hresolves ↦ ?_
  cases result with
  | error error =>
    have hcode : StatusCode.noSuchFile ≠ .ok := by decide
    exact concludes_reply fun _ h ↦ ⟨h.unanswered, .refused hcode h.fs h.keepsOpen⟩
  | ok canon =>
    refine Triple.bind (spends_openFile canon _ _) fun result ↦ ?_
    cases result with
    | error error =>
      refine concludes_reply fun _ h ↦ ⟨h.2.2, .refused ?_ h.1 h.2.1⟩
      split_ifs <;> decide
    | ok fd =>
      rintro world ⟨done, hdone, hopened⟩
      exact concludes_replyHandle ⟨hallowed, hresolves canon rfl, hdone⟩ world.nextAddress _
        ⟨hopened.fs, hopened.slots, hopened.valid, hopened.unused, hopened.fds, hopened.faults,
          hopened.unanswered⟩

theorem concludes_serveOpen :
    Triple (Spends start) (serveOpen table options message) fun _ ↦
      Concludes (OpenOutcome table options message start) start := by
  by_cases hallowed : options.readOnly = true → message.wantsWrite = false
  · rw [serveOpen_of_allowed hallowed]
    exact concludes_openResolved hallowed
  · obtain ⟨hreadOnly, hwrite⟩ := Classical.not_imp.mp hallowed
    have hcode : StatusCode.permissionDenied ≠ .ok := by decide
    rw [serveOpen_of_denied hreadOnly (by simpa using hwrite)]
    exact concludes_reply fun _ h ↦ ⟨h.unanswered, .refused hcode h.fs h.keepsOpen⟩

theorem serveRequest_of_open (table : HandleTable) (options : Options)
    (htype : message.type = fxpOpen) :
    serveRequest table options message = serveOpen table options message := by
  unfold serveRequest
  simp only [htype]
  rfl

/-- An OPEN has one answer, and has done to the files and the handles what it says. -/
theorem open_outcome (table : HandleTable) (options : Options) (htype : message.type = fxpOpen)
    (start : World) :
    ∃ answer, answers table options message start = [answer] ∧
      OpenOutcome table options message start answer
        (serveMessage table options message start).2 := by
  let received := start.log (.received message)
  have hspends : Spends received received := ⟨start.faults, rfl, fun _ h ↦ h⟩
  have hserve : Triple (Spends received) (serveOpen table options message) fun _ ↦
      Concludes (OpenOutcome table options message received) received := concludes_serveOpen
  obtain ⟨answer, before, hworld, hunanswered, houtcome⟩ := hserve received hspends
  rw [← serveRequest_of_open table options htype] at hworld
  obtain ⟨hanswers, hserved⟩ := answers_of_unanswered hunanswered (Prod.ext rfl hworld)
  refine ⟨answer, hanswers, ?_⟩
  rw [hserved]
  cases houtcome with
  | refused hcode hfs hkeeps =>
    exact .refused hcode hfs ⟨hkeeps.fds, hkeeps.slots, hkeeps.faults⟩
  | abandoned hopens hfs hkeeps =>
    exact .abandoned ⟨hopens.allowed, hopens.resolves, hopens.opens⟩ hfs
      ⟨hkeeps.fds, hkeeps.slots, hkeeps.faults⟩
  | placed hopens hfs hplaces =>
    exact .placed ⟨hopens.allowed, hopens.resolves, hopens.opens⟩ hfs
      ⟨hplaces.inTable, hplaces.free, hplaces.isFile, hplaces.valid, hplaces.unused,
        hplaces.slots, hplaces.fds, hplaces.faults⟩

/-- With nothing in its way an OPEN is answered with a handle. -/
theorem open_answers (htype : message.type = fxpOpen) (hfaults : start.faults = []) {canon : Path}
    {done : Done OpenFile} (hopens : OpensTo options message start canon done) {slot : ℕ}
    (hpick : table.pick start.slots = some slot) :
    answers table options message start = [.handle (table.encode slot)] := by
  let received := start.log (.received message)
  let flags := posixOpenFlags message.flags
  have hreceived : received.faults = [] := hfaults
  let called := received.called (.openFile canon flags) done.fs done.touched
  let fd := (newDescriptor done.value called).1
  let opened := (newDescriptor done.value called).2
  have hopen : openFile canon flags (message.mode 0o644) received = (.ok fd, opened) := by
    unfold openFile
    rw [bind_of_eq (perform_of_ok hreceived hopens.opens)]
    rfl
  let entry : HandleEntry := { address := opened.nextAddress, isDir := false, fd, path := canon }
  have hnone : opened.fault = .none :=
    fault_of_nil (show received.faults.tail = [] by rw [hreceived]; rfl)
  have halloc : table.sftpHandleAlloc entry { opened with nextAddress := opened.nextAddress + 1 } =
      (some (table.encode slot), { opened.dropFault with
        nextAddress := opened.nextAddress + 1
        slots := Function.update opened.slots slot (some entry) }) := by
    have hfault : ({ opened with nextAddress := opened.nextAddress + 1 } : World).fault = .none :=
      hnone
    have hslot : table.pick ({ opened with nextAddress := opened.nextAddress + 1 } : World).slots =
        some slot := hpick
    unfold HandleTable.sftpHandleAlloc
    rw [hfault, hslot]
    rfl
  have hserve : serveRequest table options message received = ((), World.log { opened.dropFault with
      nextAddress := opened.nextAddress + 1
      slots := Function.update opened.slots slot (some entry) }
        (.replied (.handle (table.encode slot)))) := by
    rw [serveRequest_of_open table options htype, serveOpen_of_allowed hopens.allowed]
    unfold openResolved
    rw [bind_of_eq (resolveSftpPath_of_resolves hreceived hopens.resolves)]
    refine (bind_of_eq hopen).trans ?_
    change replyHandle table entry { opened with nextAddress := opened.nextAddress + 1 } = _
    unfold replyHandle
    rw [bind_of_eq halloc]
    rfl
  refine (answers_of_unanswered ?_ hserve).1
  exact ⟨[.called (.openFile canon flags) done.touched, .opened (.fd fd)],
    List.append_assoc received.trace [_] [_], by simp [Event.reply]⟩

/-! ### FSTAT and CLOSE -/

variable {slot : ℕ} {entry : HandleEntry} {file : OpenFile}

theorem serveRequest_of_fstat (table : HandleTable) (options : Options)
    (htype : message.type = fxpFstat) :
    serveRequest table options message = serveFstat table message := by
  unfold serveRequest
  simp only [htype]
  rfl

theorem serveFstat_of_held {entry : HandleEntry} (hheld : Held table message world entry)
    (hfile : entry.isDir = false) :
    serveFstat table message world = (do
      match ← fstat entry.fd with
      | .error error => replyStatus .failure (strerror error)
      | .ok st => reply (.attr (fillAttributes st))) world := by
  have hlookup : table.sftpHandle message.handle world = (some entry, world) :=
    Prod.ext hheld rfl
  have hnot : ¬ entry.isDir = true := by
    rw [hfile]
    exact Bool.noConfusion
  unfold serveFstat
  rw [bind_of_eq hlookup]
  exact congrFun (if_neg hnot) world

/-- An FSTAT on an open file is answered from its inode unless a fault stops it, and changes
nothing. -/
theorem fstat_answers (table : HandleTable) (options : Options) (htype : message.type = fxpFstat)
    {file : OpenFile} (h : OpensFile table world message.handle file) :
    ((world.fault.fails = false ∧ answers table options message world =
        [.attr (fillAttributes (world.fs.statInode file.isDir file.ino))]) ∨
      ∃ text, world.fault.fails = true ∧
        answers table options message world = [.status .failure text]) ∧
      (serveMessage table options message world).2.fs = world.fs ∧
        KeepsOpen world (serveMessage table options message world).2 := by
  obtain ⟨entry, hheld, hfile, hlookup⟩ := h
  let received := world.log (.received message)
  have hserve := @serveFstat_of_held table message received entry hheld hfile
  rw [← serveRequest_of_fstat table options htype] at hserve
  cases hpasses : world.fault.fails with
  | true =>
    have hfails : received.fault.fails = true := hpasses
    obtain ⟨error, hcall⟩ : ∃ error, fstat entry.fd received =
        (.error error, received.called (.fstat entry.fd) received.fs []) :=
      perform_of_fails hfails
    rw [bind_of_eq hcall] at hserve
    obtain ⟨hanswers, hfs⟩ := answers_of_called (.fstat entry.fd) world.fs [] hserve
    refine ⟨.inr ⟨strerror error, rfl, hanswers⟩, hfs, ?_⟩
    exact keepsOpen_of_served hserve ((keepsOpen_called _ _ _ _).logged _)
  | false =>
    have hpass : received.fault.fails = false := hpasses
    have hop : onDescriptor entry.fd received.fs.fstat received =
        .ok ⟨world.fs.statInode file.isDir file.ino, world.fs, [file.loc]⟩ := by
      unfold onDescriptor
      rw [show received.fds.lookup entry.fd = some file from hlookup]
      rfl
    have hcall : fstat entry.fd received =
        (.ok (world.fs.statInode file.isDir file.ino),
          received.called (.fstat entry.fd) world.fs [file.loc]) := by
      unfold fstat
      rw [perform_of_passes hpass, hop]
    rw [bind_of_eq hcall] at hserve
    obtain ⟨hanswers, hfs⟩ := answers_of_called (.fstat entry.fd) world.fs [file.loc] hserve
    exact ⟨.inl ⟨rfl, hanswers⟩, hfs,
      keepsOpen_of_served hserve ((keepsOpen_called _ _ _ _).logged _)⟩

theorem Places.held (h : Places table start slot entry file world)
    (hkeeps : KeepsOpen world after) :
    (table.decode (table.encode slot)).bind after.slots = some entry := by
  rw [table.decode_encode h.inTable, Option.bind_some, hkeeps.slots, h.slots, Function.update_self]

/-- The descriptor that was opened last leads to the file. -/
theorem Places.opensFile (h : Places table start slot entry file world)
    (hkeeps : KeepsOpen world after) : OpensFile table after (table.encode slot) file := by
  refine ⟨entry, h.held hkeeps, h.isFile, ?_⟩
  rw [hkeeps.fds, h.fds]
  exact List.lookup_cons_self

/-- A CLOSE of the file that was opened last gives back its descriptor and its slot. -/
theorem close_placed (table : HandleTable) (options : Options) (htype : message.type = fxpClose)
    (hplaces : Places table start slot entry file world) (hkeeps : KeepsOpen world after)
    (hledger : Ledger table none after) (hhandle : message.handle = table.encode slot) :
    answers table options message after = [.status .ok ""] ∧
      (serveMessage table options message after).2.fs = after.fs ∧
      KeepsOpen start (serveMessage table options message after).2 := by
  let received := after.log (.received message)
  let removed : World := { received with slots := Function.update received.slots slot none }
  have hheld : table.sftpHandle message.handle received = (some entry, received) := by
    rw [hhandle]
    exact Prod.ext (hplaces.held (hkeeps.logged (.received message))) rfl
  have hslot : received.slots slot = some entry := by
    change after.slots slot = _
    rw [hkeeps.slots, hplaces.slots, Function.update_self]
  have hremove : table.sftpHandleRemove entry received = ((), removed) := by
    have hreceived : Ledger table none received := hledger.log rfl trivial
    rw [HandleTable.sftpHandleRemove, slotOf_eq hreceived hslot]
  have hclose : closeHandle entry removed = close entry.fd removed := by
    have hnot : ¬ entry.isDir = true := by
      rw [hplaces.isFile]
      exact Bool.noConfusion
    unfold closeHandle
    rw [if_neg hnot, if_pos hplaces.valid]
  have hserve : serveRequest table options message received =
      ((), (close entry.fd removed).2.log (.replied (.status .ok ""))) := by
    rw [serveRequest_of_close options htype]
    unfold serveClose
    rw [bind_of_eq hheld]
    refine (bind_of_eq hremove).trans ?_
    exact bind_of_eq hclose
  have hfds : (close entry.fd removed).2.fds = start.fds := by
    change after.fds.filter (·.1 ≠ entry.fd) = _
    rw [hkeeps.fds, hplaces.fds, filter_descriptor file hplaces.unused]
  have hslots : (close entry.fd removed).2.slots = start.slots := by
    change Function.update after.slots slot none = _
    rw [hkeeps.slots, hplaces.slots, Function.update_idem, ← hplaces.free,
      Function.update_eq_self]
  obtain ⟨hanswers, hserved⟩ := answers_of_unanswered
    ⟨[.closed (.fd entry.fd)], rfl, by simp [Event.reply]⟩ hserve
  refine ⟨hanswers, ?_, ?_⟩
  · rw [hserved]
    rfl
  · rw [hserved]
    exact ⟨hfds, hslots, fun fault hfault ↦ hplaces.faults fault (hkeeps.faults fault hfault)⟩

end LibSshpp.SftpServer
