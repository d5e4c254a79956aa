import LibSshpp.SftpServer.ListingRuns
import LibSshpp.SftpServer.OpenRequests

/-!
OPENDIR requests, and the READDIR and CLOSE requests on the directory that was opened. While a
directory is read, everything but its handle and its stream is as it was before it was opened,
and closing it takes these two away.
-/

set_option autoImplicit false
set_option relaxedAutoImplicit false

namespace LibSshpp.SftpServer

open Posix Sftp Program

variable {table : HandleTable} {options : Options} {message : ClientMessage}
  {start world after : World} {slot : ℕ} {entry : HandleEntry}

/-- The files, the streams, the descriptors and the handles are as before. -/
structure Unchanged (start world : World) : Prop where
  fs : world.fs = start.fs
  streams : world.streams = start.streams
  keeps : KeepsOpen start world

theorem Spends.unchanged (h : Spends start world) : Unchanged start world := by
  have hkeeps := h.keepsOpen
  have hfs := h.fs
  obtain ⟨faults, rfl, -⟩ := h
  exact ⟨hfs, rfl, hkeeps⟩

/-- The directory of the entry is being read: the entry has a slot that was free and a stream that
is new, and everything else is as it was. -/
structure Browsed (table : HandleTable) (start : World) (slot : ℕ) (entry : HandleEntry)
    (world : World) : Prop where
  inTable : slot < table.size
  free : start.slots slot = none
  isDir : entry.isDir = true
  valid : entry.dir ≠ 0
  slots : world.slots = Function.update start.slots slot (some entry)
  others : world.streams.filter (·.1 ≠ entry.dir) = start.streams
  fs : world.fs = start.fs
  fds : world.fds = start.fds
  faults : ∀ fault ∈ world.faults, fault ∈ start.faults

/-! ### OPENDIR -/

/-- The directory has a new stream with all its names, but no handle leads to it yet. -/
structure Streamed (start : World) (dir : ℕ) (loc : Loc) (world : World) : Prop where
  valid : dir ≠ 0
  unused : dir ∉ start.streams.map Prod.fst
  streams : world.streams =
    (dir, ⟨loc, dot :: dotdot :: start.fs.tree.children loc⟩) :: start.streams
  fs : world.fs = start.fs
  keeps : KeepsOpen start world
  unanswered : Unanswered start world

/-- A stream that was opened last is gone without it. -/
theorem filter_stream {streams : List (ℕ × DirStream)} {dir : ℕ} (stream : DirStream)
    (hunused : dir ∉ streams.map Prod.fst) :
    ((dir, stream) :: streams).filter (·.1 ≠ dir) = streams := by
  rw [List.filter_cons_of_neg (by simp)]
  refine List.filter_eq_self.mpr fun other hother ↦ ?_
  have hne : other.1 ≠ dir := fun heq ↦ hunused (heq ▸ List.mem_map_of_mem hother)
  simpa using hne

/-- What an OPENDIR comes to. -/
inductive OpendirOutcome (table : HandleTable) (options : Options) (message : ClientMessage)
    (start : World) : Reply → World → Prop
  | refused {code : StatusCode} {text : String} {world : World} (hcode : code ≠ .ok)
    (hsame : Unchanged start world) :
    OpendirOutcome table options message start (.status code text) world
  | placed {canon : Path} {loc : Loc} {slot : ℕ} {entry : HandleEntry} {world : World}
    (hresolves : Resolves start.fs options.root message.path canon)
    (hloc : start.fs.lookup true canon = .ok loc) (hisDir : start.fs.tree.isDir loc = true)
    (hbrowsed : Browsed table start slot entry world) (hpath : entry.path = canon)
    (hstream : world.streams.lookup entry.dir =
      some ⟨loc, dot :: dotdot :: start.fs.tree.children loc⟩) :
    OpendirOutcome table options message start (.handle (table.encode slot)) world

theorem spends_opendir (canon : Path) :
    Triple (Spends start) (opendir canon) fun result world ↦
      (∀ error, result = .error error → Unchanged start world ∧ Unanswered start world) ∧
        ∀ dir, result = .ok dir → ∃ loc, start.fs.lookup true canon = .ok loc ∧
          start.fs.tree.isDir loc = true ∧ Streamed start dir loc world := by
  refine opendir_triple (fun world error h ↦ ⟨fun _ _ ↦ ?_, fun _ h ↦ by cases h⟩)
    fun world done h hdone ↦ ⟨fun _ h ↦ (by cases h), fun dir hdir ↦ ?_⟩
  · have hsame := h.unchanged
    exact ⟨⟨hsame.fs, hsame.streams, hsame.keeps.trans (keepsOpen_called world _ _ _)⟩,
      h.unanswered.concat rfl rfl⟩
  · have hsame := h.unchanged
    have hfs : done.fs = world.fs := FileSystem.fs_of_opendir hdone
    rw [hsame.fs] at hdone
    obtain ⟨loc, hloc, hisDir, hvalue⟩ := fs_opendir_eq_ok hdone
    obtain rfl := Except.ok.inj hdir
    let called := world.called (.opendir canon) done.fs done.touched
    have hnew := newStream_notMem done.value called
    have hstreams : called.streams = start.streams := hsame.streams
    have hunanswered : Unanswered start called := h.unanswered.concat rfl rfl
    have hkeeps : KeepsOpen start called := hsame.keeps.trans (keepsOpen_called world _ _ _)
    refine ⟨loc, hloc, hisDir, fun hzero ↦ hnew (hzero ▸ List.mem_cons_self),
      fun hused ↦ hnew (List.mem_cons_of_mem 0 (hstreams ▸ hused)), ?_, hfs.trans hsame.fs,
      ⟨hkeeps.fds, hkeeps.slots, hkeeps.faults⟩, hunanswered.concat rfl rfl⟩
    rw [← hvalue]
    exact congrArg (List.cons _) hstreams

theorem concludes_replyDirectory {canon : Path} {loc : Loc} {dir : ℕ}
    (hresolves : Resolves start.fs options.root message.path canon)
    (hloc : start.fs.lookup true canon = .ok loc) (hisDir : start.fs.tree.isDir loc = true)
    (address : ℕ) :
    Triple (Streamed start dir loc)
      (replyHandle table { address, isDir := true, dir, path := canon }) fun _ ↦
        Concludes (OpendirOutcome table options message start) start := by
  let entry : HandleEntry := { address, isDir := true, dir, path := canon }
  have halloc : Triple (Streamed start dir loc) (table.sftpHandleAlloc entry) fun result world ↦
      (result = none → Streamed start dir loc world) ∧
        ∀ handle, result = some handle → Unanswered start world ∧
          OpendirOutcome table options message start (.handle handle) world := by
    refine alloc_triple (fun world h ↦ ⟨fun _ ↦ ?_, fun _ h ↦ by cases h⟩)
      fun world slot h hslot hfree ↦ ⟨fun h ↦ (by cases h), fun handle hhandle ↦ ?_⟩
    · exact ⟨h.valid, h.unused, h.streams, h.fs, ⟨h.keeps.fds, h.keeps.slots, fun fault hfault ↦
        h.keeps.faults fault (List.mem_of_mem_tail hfault)⟩, h.unanswered⟩
    · obtain rfl := Option.some.inj hhandle
      have hbrowsed : Browsed table start slot entry { world.dropFault with
          slots := Function.update world.slots slot (some entry) } := by
        refine ⟨hslot, h.keeps.slots ▸ hfree, rfl, h.valid,
          congrArg (Function.update · slot (some entry)) h.keeps.slots, ?_, h.fs, h.keeps.fds,
          fun fault hfault ↦ h.keeps.faults fault (List.mem_of_mem_tail hfault)⟩
        change world.streams.filter (·.1 ≠ dir) = _
        rw [h.streams, filter_stream _ h.unused]
      refine ⟨h.unanswered, .placed hresolves hloc hisDir hbrowsed rfl ?_⟩
      change world.streams.lookup dir = _
      rw [h.streams]
      exact List.lookup_cons_self
  refine Triple.bind halloc fun result ↦ ?_
  cases result with
  | none =>
    have hclose : Triple (Streamed start dir loc) (closeHandle entry) fun _ world ↦
        Unchanged start world ∧ Unanswered start world := by
      intro world h
      have hcloses : closeHandle entry world = closedir dir world := by
        unfold closeHandle
        rw [if_pos rfl, if_pos h.valid]
      rw [hcloses]
      refine ⟨⟨h.fs, ?_, h.keeps.fds, h.keeps.slots, h.keeps.faults⟩, h.unanswered.concat rfl rfl⟩
      change world.streams.filter (·.1 ≠ dir) = _
      rw [h.streams, filter_stream _ h.unused]
    have hcode : StatusCode.failure ≠ .ok := by decide
    exact Triple.bind (hclose.mono (fun _ h ↦ h.1 rfl) fun _ _ h ↦ h) fun _ ↦
      concludes_reply fun _ h ↦ ⟨h.2, .refused hcode h.1⟩
  | some handle => exact concludes_reply fun _ h ↦ h.2 handle rfl

theorem concludes_serveOpendir :
    Triple (Spends start) (serveOpendir table options message) fun _ ↦
      Concludes (OpendirOutcome table options message start) start := by
  have hcode : StatusCode.noSuchFile ≠ .ok := by decide
  refine Triple.bind (spends_resolveSftpPath options.root message.path) fun result ↦
    Triple.of_fact fun hresolves ↦ ?_
  cases result with
  | error error =>
    exact concludes_reply fun _ h ↦ ⟨h.unanswered, .refused hcode h.unchanged⟩
  | ok canon =>
    refine Triple.bind (spends_opendir canon) fun result ↦ ?_
    cases result with
    | error error =>
      exact concludes_reply fun _ h ↦ ⟨(h.1 error rfl).2, .refused hcode (h.1 error rfl).1⟩
    | ok dir =>
      intro world h
      obtain ⟨loc, hloc, hisDir, hstreamed⟩ := h.2 dir rfl
      exact concludes_replyDirectory (hresolves canon rfl) hloc hisDir world.nextAddress
        { world with nextAddress := world.nextAddress + 1 }
        ⟨hstreamed.valid, hstreamed.unused, hstreamed.streams, hstreamed.fs,
          ⟨hstreamed.keeps.fds, hstreamed.keeps.slots, hstreamed.keeps.faults⟩,
          hstreamed.unanswered⟩

/-- An OPENDIR has one answer, and has done to the streams and the handles what it says. -/
theorem opendir_outcome (table : HandleTable) (options : Options)
    (htype : message.type = fxpOpendir) (start : World) :
    ∃ answer, answers table options message start = [answer] ∧
      OpendirOutcome table options message start answer
        (serveMessage table options message start).2 := by
  let received := start.log (.received message)
  have hspends : Spends received received := ⟨start.faults, rfl, fun _ h ↦ h⟩
  have hserve : Triple (Spends received) (serveOpendir table options message) fun _ ↦
      Concludes (OpendirOutcome table options message received) received := concludes_serveOpendir
  obtain ⟨answer, before, hworld, hunanswered, houtcome⟩ := hserve received hspends
  rw [← serveRequest_of_opendir table options htype] at hworld
  obtain ⟨hanswers, hserved⟩ := answers_of_unanswered hunanswered (Prod.ext rfl hworld)
  refine ⟨answer, hanswers, ?_⟩
  rw [hserved]
  cases houtcome with
  | refused hcode hsame =>
    exact .refused hcode ⟨hsame.fs, hsame.streams, hsame.keeps.fds, hsame.keeps.slots,
      hsame.keeps.faults⟩
  | placed hresolves hloc hisDir hbrowsed hpath hstream =>
    exact .placed hresolves hloc hisDir ⟨hbrowsed.inTable, hbrowsed.free, hbrowsed.isDir,
      hbrowsed.valid, hbrowsed.slots, hbrowsed.others, hbrowsed.fs, hbrowsed.fds,
      hbrowsed.faults⟩ hpath hstream

/-- With nothing in its way an OPENDIR is answered with a handle. -/
theorem opendir_answers (htype : message.type = fxpOpendir) (hfaults : start.faults = [])
    {canon : Path} (hresolves : Resolves start.fs options.root message.path canon) {loc : Loc}
    (hloc : start.fs.lookup true canon = .ok loc) (hisDir : start.fs.tree.isDir loc = true)
    (hpick : table.pick start.slots = some slot) :
    answers table options message start = [.handle (table.encode slot)] := by
  let received := start.log (.received message)
  have hreceived : received.faults = [] := hfaults
  let stream : DirStream := ⟨loc, dot :: dotdot :: start.fs.tree.children loc⟩
  have hdone : start.fs.opendir canon = .ok ⟨stream, start.fs, [loc]⟩ := by
    unfold FileSystem.opendir
    simp only [hloc, if_pos hisDir]
    rfl
  let called := received.called (.opendir canon) start.fs [loc]
  let dir := (newStream stream called).1
  let opened := (newStream stream called).2
  have hopen : opendir canon received = (.ok dir, opened) := by
    unfold opendir
    rw [bind_of_eq (perform_of_ok hreceived hdone)]
    rfl
  let entry : HandleEntry := { address := opened.nextAddress, isDir := true, dir, path := canon }
  have hnone : opened.fault = .none :=
    fault_of_nil (show received.faults.tail = [] by rw [hreceived]; rfl)
  have halloc : table.sftpHandleAlloc entry { opened with nextAddress := opened.nextAddress + 1 } =
      (some (table.encode slot), { opened.dropFault with
        nextAddress := opened.nextAddress + 1
        slots := Function.update opened.slots slot (some entry) }) := by
    have hfault : ({ opened with nextAddress := opened.nextAddress + 1 } : World).fault = .none :=
      hnone
    have hslot : table.pick ({ opened with nextAddress := opened.nextAddress + 1 } : World).slots =
        some slot := hpick
    unfold HandleTable.sftpHandleAlloc
    rw [hfault, hslot]
    rfl
  have hserve : serveRequest table options message received = ((), World.log { opened.dropFault with
      nextAddress := opened.nextAddress + 1
      slots := Function.update opened.slots slot (some entry) }
        (.replied (.handle (table.encode slot)))) := by
    rw [serveRequest_of_opendir table options htype]
    unfold serveOpendir
    rw [bind_of_eq (resolveSftpPath_of_resolves hreceived hresolves)]
    refine (bind_of_eq hopen).trans ?_
    change replyHandle table entry { opened with nextAddress := opened.nextAddress + 1 } = _
    unfold replyHandle
    rw [bind_of_eq halloc]
    rfl
  refine (answers_of_unanswered ?_ hserve).1
  exact ⟨[.called (.opendir canon) [loc], .opened (.stream dir)],
    List.append_assoc received.trace [_] [_], by simp [Event.reply]⟩

/-! ### READDIR -/

theorem Browsed.held (h : Browsed table start slot entry world) :
    (table.decode (table.encode slot)).bind world.slots = some entry := by
  rw [table.decode_encode h.inTable, Option.bind_some, h.slots, Function.update_self]

theorem Browsed.log (h : Browsed table start slot entry world) (event : Event) :
    Browsed table start slot entry (world.log event) :=
  ⟨h.inTable, h.free, h.isDir, h.valid, h.slots, h.others, h.fs, h.fds, h.faults⟩

theorem Browsed.called (h : Browsed table start slot entry world) (call : PosixCall)
    (touched : List Loc) : Browsed table start slot entry (world.called call world.fs touched) :=
  ⟨h.inTable, h.free, h.isDir, h.valid, h.slots, h.others, h.fs, h.fds,
    fun fault hfault ↦ h.faults fault (List.mem_of_mem_tail hfault)⟩

theorem browsed_readdir : Keeps (Browsed table start slot entry) (readdir entry.dir) := by
  refine readdir_triple (fun _ h ↦ h.called _ _) fun world stream h _ ↦ ?_
  refine ⟨h.inTable, h.free, h.isDir, h.valid, h.slots, ?_, h.fs, h.fds,
    fun fault hfault ↦ h.faults fault (List.mem_of_mem_tail hfault)⟩
  change List.filter _ (_ :: _) = _
  rw [List.filter_cons_of_neg (by simp), List.filter_filter]
  simpa using h.others

theorem browsed_lstat (path : Path) : Keeps (Browsed table start slot entry) (lstat path) := by
  refine perform_triple (fun _ _ h ↦ h.called _ _) fun world done h hdone ↦ ?_
  rw [FileSystem.fs_of_statPath hdone]
  exact h.called _ _

theorem browsed_readdirLoop (path : Path) (fuel : ℕ) :
    ∀ name added, Keeps (Browsed table start slot entry)
      (readdirLoop entry.dir path fuel name added) := by
  induction fuel with
  | zero => exact fun _ _ ↦ Keeps.pure ()
  | succ fuel ih =>
    intro name added
    have hnext (added : ℕ) :
        Keeps (Browsed table start slot entry) (readOn entry.dir path fuel added) := by
      refine Keeps.bind browsed_readdir fun next ↦ ?_
      cases next with
      | none => exact Keeps.pure ()
      | some next => exact ih next added
    rw [readdirLoop_succ]
    refine Keeps.bind (browsed_lstat _) fun result ↦ ?_
    cases result with
    | error error => exact hnext added
    | ok st =>
      refine Keeps.bind (fun _ h ↦ h.log _) fun _ ↦ ?_
      exact Keeps.ite (fun _ ↦ Keeps.pure ()) fun _ ↦ hnext (added + 1)

/-- A READDIR reads on in its stream and does nothing else. -/
theorem readdir_browsed (options : Options) (htype : message.type = fxpReaddir)
    (hhandle : message.handle = table.encode slot) (h : Browsed table start slot entry world) :
    Browsed table start slot entry (serveMessage table options message world).2 := by
  have hreceived := h.log (.received message)
  have hheld : Held table message (world.log (.received message)) entry := by
    rw [Held, hhandle]
    exact hreceived.held
  have hserve : Browsed table start slot entry
      (serveReaddir table message (world.log (.received message))).2 := by
    rw [serveReaddir_of_held hheld h.isDir]
    refine Keeps.bind browsed_readdir (fun next ↦ ?_) _ hreceived
    cases next with
    | none => exact fun _ h ↦ h.log _
    | some name =>
      refine Keeps.bind (fun _ h ↦ h) fun pending ↦ ?_
      exact Keeps.bind (browsed_readdirLoop entry.path (pending + 1) name 0) fun _ _ h ↦ h.log _
  rw [← serveRequest_of_readdir table options htype] at hserve
  exact hserve.log _

/-! ### CLOSE -/

/-- A CLOSE of a directory leaves everything as it was before the directory was opened. -/
theorem close_browsed (table : HandleTable) (options : Options) (htype : message.type = fxpClose)
    (hhandle : message.handle = table.encode slot) (h : Browsed table start slot entry world)
    (hledger : Ledger table none world) :
    Unchanged start (serveMessage table options message world).2 := by
  let received := world.log (.received message)
  let removed : World := { received with slots := Function.update received.slots slot none }
  have hheld : table.sftpHandle message.handle received = (some entry, received) := by
    rw [hhandle]
    exact Prod.ext (h.log (.received message)).held rfl
  have hslot : received.slots slot = some entry := by
    change world.slots slot = _
    rw [h.slots, Function.update_self]
  have hremove : table.sftpHandleRemove entry received = ((), removed) := by
    have hreceived : Ledger table none received := hledger.log rfl trivial
    rw [HandleTable.sftpHandleRemove, slotOf_eq hreceived hslot]
  have hclose : closeHandle entry removed = closedir entry.dir removed := by
    unfold closeHandle
    rw [if_pos h.isDir, if_pos h.valid]
  have hserve : serveRequest table options message received =
      ((), (closedir entry.dir removed).2.log (.replied (.status .ok ""))) := by
    rw [serveRequest_of_close options htype]
    unfold serveClose
    rw [bind_of_eq hheld]
    refine (bind_of_eq hremove).trans ?_
    exact bind_of_eq hclose
  have hserved : (serveMessage table options message world).2 =
      ((closedir entry.dir removed).2.log (.replied (.status .ok ""))).log (.freed message) := by
    change (serveRequest table options message received).2.log _ = _
    rw [hserve]
  rw [hserved]
  refine ⟨h.fs, h.others, h.fds, ?_, h.faults⟩
  change Function.update world.slots slot none = _
  rw [h.slots, Function.update_idem, ← h.free, Function.update_eq_self]

end LibSshpp.SftpServer
