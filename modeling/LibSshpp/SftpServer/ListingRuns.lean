import LibSshpp.SftpServer.DirectoryListing
import LibSshpp.SftpServer.OwnResources

/-!
Listing a directory with several READDIR requests. Whatever is requested on other handles
in between, the requests on one handle read the names of one stream, each from where the last
stopped.
-/

set_option autoImplicit false
set_option relaxedAutoImplicit false

namespace LibSshpp.SftpServer

open Posix Sftp Program

/-! ### Requests on other handles -/

/-- The slot holds the entry of a directory, whose stream is as given. -/
structure Listing (slot : ℕ) (entry : HandleEntry) (stream : DirStream) (world : World) : Prop where
  inSlot : world.slots slot = some entry
  reads : world.streams.lookup entry.dir = some stream

section Others

variable {table : HandleTable} {slot : ℕ} {entry : HandleEntry} {stream : DirStream}
  {world : World}

theorem Listing.transfer (h : Listing slot entry stream world) {after : World}
    (hslots : after.slots = world.slots) (hstreams : after.streams = world.streams) :
    Listing slot entry stream after :=
  ⟨hslots ▸ h.inSlot, hstreams ▸ h.reads⟩

theorem perform_listing {α : Type} (call : PosixCall) (op : World → Except Errno (Done α)) :
    Keeps (Listing slot entry stream) (perform call op) :=
  perform_triple (fun _ _ h ↦ h.transfer rfl rfl) fun _ _ h _ ↦ h.transfer rfl rfl

/-- Closing another resource. -/
theorem closeHandle_listing (hdir : entry.isDir = true) (other : HandleEntry) :
    Triple (fun world ↦ Listing slot entry stream world ∧ other.resource ≠ entry.resource)
      (closeHandle other) fun _ ↦ Listing slot entry stream := by
  refine Triple.of_fact fun hne ↦ ?_
  unfold closeHandle
  refine Triple.ite (fun hother ↦ ?_) fun _ ↦ ?_
  · have hstream : entry.dir ≠ other.dir := by
      intro heq
      rw [HandleEntry.resource, HandleEntry.resource, if_pos hother, if_pos hdir, heq] at hne
      exact hne rfl
    refine Triple.ite (fun _ world h ↦ ⟨h.inSlot, ?_⟩) fun _ ↦ Keeps.pure _
    exact (lookup_filter_ne hstream).trans h.reads
  · exact Triple.ite (fun _ world h ↦ h.transfer rfl rfl) fun _ ↦ Keeps.pure _

def listingStages (slot : ℕ) (entry : HandleEntry) (stream : DirStream) : Stages where
  pending := Listing slot entry stream
  fresh resource _ world := Listing slot entry stream world ∧ resource ≠ entry.resource
  holding other world := Listing slot entry stream world ∧ other.resource ≠ entry.resource
  granted _ := Listing slot entry stream
  reading := Listing slot entry stream
  named _ := True
  done := Listing slot entry stream

/-- The entry that a message leads to through another slot is another one. -/
theorem resource_ne_of_held {start : World} (hledger : Ledger table none start)
    (hlisting : Listing slot entry stream start) {message : ClientMessage}
    (hslot : table.decode message.handle ≠ some slot) {other : HandleEntry}
    (hheld : Held table message start other) :
    ∃ place, start.slots place = some other ∧ place ≠ slot ∧ other.resource ≠ entry.resource := by
  obtain ⟨place, hdecode, hplace⟩ := Option.bind_eq_some_iff.mp hheld
  have hne : place ≠ slot := fun heq ↦ hslot (heq ▸ hdecode)
  exact ⟨place, hplace, hne, fun heq ↦
    hne (hledger.resource_inj place slot other entry hplace hlisting.inSlot heq)⟩

theorem readdir_listing (hdir : entry.isDir = true) {other : HandleEntry}
    (hother : other.isDir = true) (hne : other.resource ≠ entry.resource) :
    Keeps (Listing slot entry stream) (readdir other.dir) := by
  have hstream : entry.dir ≠ other.dir := by
    intro heq
    rw [HandleEntry.resource, HandleEntry.resource, if_pos hother, if_pos hdir, heq] at hne
    exact hne rfl
  refine readdir_triple (fun _ h ↦ h.transfer rfl rfl) fun world _ h _ ↦ ⟨h.inSlot, ?_⟩
  have hbeq : (entry.dir == other.dir) = false := by simpa using hstream
  change List.lookup entry.dir (_ :: _) = _
  rw [List.lookup_cons, hbeq]
  exact (lookup_filter_ne hstream).trans h.reads

theorem resource_entry (resource : Resource) (path : Path) (address : ℕ) :
    (resource.entry path address).resource = resource := by
  cases resource <;> rfl

/-- Another stream is opened. -/
theorem newStream_listing (hdir : entry.isDir = true) (h : Listing slot entry stream world)
    (other : DirStream) :
    Listing slot entry stream (newStream other world).2 ∧
      .stream (newStream other world).1 ≠ entry.resource := by
  have hopen : entry.dir ∈ world.streams.map Prod.fst :=
    List.mem_map.mpr ⟨_, mem_of_lookup h.reads, rfl⟩
  have hne : entry.dir ≠ (newStream other world).1 := fun heq ↦
    newStream_notMem other world (heq ▸ List.mem_cons_of_mem 0 hopen)
  refine ⟨⟨h.inSlot, ?_⟩, fun heq ↦ ?_⟩
  · have hbeq : (entry.dir == lowestFree (0 :: world.streams.map Prod.fst)) = false :=
      beq_eq_false_iff_ne.mpr hne
    change List.lookup entry.dir (_ :: _) = _
    rw [List.lookup_cons, hbeq]
    exact h.reads
  · rw [HandleEntry.resource, if_pos hdir] at heq
    exact hne (Resource.stream.inj heq).symm

/-- A request that neither reads nor closes the slot leaves its listing alone. -/
theorem listingRules (options : Options) {message : ClientMessage} {start : World}
    (hledger : Ledger table none start) (hlisting : Listing slot entry stream start)
    (hdir : entry.isDir = true)
    (hread : message.type = fxpReaddir → table.decode message.handle ≠ some slot)
    (hclose : ¬ ClosesSlot table message slot) :
    RequestRules table options message start (listingStages slot entry stream) where
  canonical path := by
    intro world h
    unfold weaklyCanonical
    split <;> exact h.transfer rfl rfl
  reply _ _ _ := fun _ h ↦ h.transfer rfl rfl
  lstat _ := keepsAt (perform_listing _ _)
  stat _ := keepsAt (perform_listing _ _)
  readlink _ := keepsAt (perform_listing _ _)
  statEntry _ _ := keepsAt (perform_listing _ _)
  fstat _ _ := keepsAt (perform_listing _ _)
  pread _ _ _ _ := keepsAt (perform_listing _ _)
  pwrite _ _ _ _ _ _ := keepsAt (perform_listing _ _)
  read _ _ _ _ _ h := h.1
  readdir htype other hheld hother := by
    obtain ⟨_, -, -, hne⟩ := resource_ne_of_held hledger hlisting (hread htype) hheld
    exact (readdir_listing hdir hother hne).mono (fun _ h ↦ h) fun _ _ h ↦ ⟨h, fun _ _ ↦ trivial⟩
  lstatChild _ _ _ _ _ _ := perform_listing _ _
  collect _ _ _ := fun _ h ↦ h.transfer rfl rfl
  listed _ h := h
  openFile _ _ _ := by
    refine openFile_triple (fun _ _ h ↦ h.1.transfer rfl rfl) fun _ _ h _ ↦
      ⟨h.1.transfer rfl rfl, fun heq ↦ ?_⟩
    rw [HandleEntry.resource, if_pos hdir] at heq
    cases heq
  opendir {canon} _ := by
    refine opendir_triple (fun _ _ h ↦ h.1.transfer rfl rfl) fun world done h _ ↦ ?_
    have hopened : Listing slot entry stream
        (world.called (.opendir canon) done.fs done.touched) := h.1.transfer rfl rfl
    exact newStream_listing hdir hopened done.value
  newAddress resource path := fun _ h ↦ ⟨h.1.transfer rfl rfl, (resource_entry ..).symm ▸ h.2⟩
  alloc other := by
    refine alloc_triple (fun _ h ↦ ⟨h.1.transfer rfl rfl, h.2⟩) fun world place h _ hfree ↦ ?_
    have hne : slot ≠ place := by
      rintro rfl
      cases hfree.symm.trans h.1.inSlot
    exact ⟨(Function.update_of_ne hne _ _).trans h.1.inSlot, h.1.reads⟩
  abandon other := closeHandle_listing hdir other
  grant _ := fun _ h ↦ h.transfer rfl rfl
  release htype other hheld := by
    obtain ⟨place, hplace, hne, hresource⟩ :=
      resource_ne_of_held hledger hlisting (fun hdecode ↦ hclose ⟨htype, hdecode⟩) hheld
    refine Triple.bind ?_ fun _ ↦ closeHandle_listing hdir other
    intro world h
    rw [HandleTable.sftpHandleRemove, h.2.slots, slotOf_eq hledger hplace]
    exact ⟨⟨(Function.update_of_ne hne.symm _ _).trans hlisting.inSlot, h.1.reads⟩, hresource⟩
  unlink _ _ _ := keepsAt (perform_listing _ _)
  mkdir _ _ _ _ := keepsAt (perform_listing _ _)
  rmdir _ _ _ _ := keepsAt (perform_listing _ _)
  rename _ _ _ _ _ _ := keepsAt (perform_listing _ _)
  symlink _ _ _ _ := keepsAt (perform_listing _ _)

theorem serveMessage_listing (options : Options) {message : ClientMessage}
    (hledger : Ledger table none world) (hlisting : Listing slot entry stream world)
    (hdir : entry.isDir = true)
    (hread : message.type = fxpReaddir → table.decode message.handle ≠ some slot)
    (hclose : ¬ ClosesSlot table message slot) :
    Listing slot entry stream (serveMessage table options message world).2 := by
  have hreceived : Ledger table none (world.log (.received message)) := hledger.log rfl trivial
  have hstart : Listing slot entry stream (world.log (.received message)) :=
    hlisting.transfer rfl rfl
  have hserved := (listingRules options hreceived hstart hdir hread hclose).request _
    ⟨hstart, quiet_refl _⟩
  exact Listing.transfer hserved rfl rfl

end Others

/-! ### Opening the directory -/

/-- The handle leads to a directory at the path, with all names still to be read. -/
def OpensDirectory (table : HandleTable) (fs : FileSystem) (path : Path) (handle : Bytes)
    (world : World) : Prop :=
  ∃ slot entry loc, table.decode handle = some slot ∧ entry.isDir = true ∧ entry.path = path ∧
    fs.lookup true path = .ok loc ∧ fs.tree.isDir loc = true ∧
      Listing slot entry ⟨loc, dot :: dotdot :: fs.tree.children loc⟩ world

/-- A handle that was handed out since `start` leads to the directory that the path of the
request resolves to. -/
def HandsDirectory (table : HandleTable) (options : Options) (message : ClientMessage)
    (start world : World) : Prop :=
  ∃ events, world.trace = start.trace ++ events ∧
    ∀ handle, .handle handle ∈ events.filterMap Event.reply →
      ∃ path, Resolves start.fs options.root message.path path ∧
        OpensDirectory table start.fs path handle world

section Opening

variable {table : HandleTable} {options : Options} {message : ClientMessage} {start : World}

theorem handle_notMem_replies {events : List Event}
    (h : ∀ event ∈ events, event.handed = none) (handle : Bytes) :
    .handle handle ∉ events.filterMap Event.reply := by
  intro hhandle
  obtain ⟨event, hevent, hreply⟩ := List.mem_filterMap.mp hhandle
  have hhanded := h event hevent
  cases event with
  | replied answer =>
    obtain rfl := Option.some.inj hreply
    exact nomatch hhanded
  | _ => exact nomatch hreply

theorem handsDirectory_of_none {world : World} (h : NoHandleSince start world) :
    HandsDirectory table options message start world := by
  obtain ⟨events, htrace, hnone⟩ := h
  exact ⟨events, htrace, fun handle hhandle ↦ absurd hhandle (handle_notMem_replies hnone handle)⟩

theorem OpensDirectory.log {fs : FileSystem} {path : Path} {handle : Bytes} {world : World}
    (h : OpensDirectory table fs path handle world) (event : Event) :
    OpensDirectory table fs path handle (world.log event) := by
  obtain ⟨slot, entry, loc, hdecode, hdir, hpath, hloc, hisDir, hlisting⟩ := h
  exact ⟨slot, entry, loc, hdecode, hdir, hpath, hloc, hisDir, hlisting.transfer rfl rfl⟩

theorem replyHandle_hands {path : Path} {loc : Loc} {dir : ℕ}
    (hpath : Resolves start.fs options.root message.path path)
    (hloc : start.fs.lookup true path = .ok loc) (hisDir : start.fs.tree.isDir loc = true)
    (address : ℕ) :
    Triple (fun world ↦ NoHandleSince start world ∧ world.streams.lookup dir =
        some ⟨loc, dot :: dotdot :: start.fs.tree.children loc⟩)
      (replyHandle table { address, isDir := true, dir, path })
      fun _ ↦ HandsDirectory table options message start := by
  let entry : HandleEntry := { address, isDir := true, dir, path }
  have halloc : Triple (fun world ↦ NoHandleSince start world ∧ world.streams.lookup dir =
        some ⟨loc, dot :: dotdot :: start.fs.tree.children loc⟩)
      (table.sftpHandleAlloc entry) fun result world ↦ NoHandleSince start world ∧
        ∀ handle, result = some handle → OpensDirectory table start.fs path handle world := by
    refine alloc_triple (fun _ h ↦ ⟨h.1, fun _ h ↦ nomatch h⟩) fun world slot h hslot _ ↦ ?_
    refine ⟨h.1, fun handle hhandle ↦ ?_⟩
    obtain rfl := Option.some.inj hhandle
    exact ⟨slot, entry, loc, table.decode_encode hslot, rfl, rfl, hloc, hisDir,
      Function.update_self .., h.2⟩
  refine Triple.bind halloc fun result ↦ ?_
  cases result with
  | none =>
    have hclose : Triple (fun world ↦ NoHandleSince start world ∧ ∀ handle, none = some handle →
        OpensDirectory table start.fs path handle world) (closeHandle entry)
        fun _ ↦ NoHandleSince start :=
      (closeHandle_since (fun _ ↦ rfl) entry).mono (fun _ h ↦ h.1) fun _ _ h ↦ h
    exact Triple.bind hclose fun _ _ h ↦ handsDirectory_of_none (h.concat rfl rfl)
  | some handle =>
    rintro world ⟨⟨events, htrace, hnone⟩, hopens⟩
    refine ⟨events ++ [.replied (.handle handle)], ?_, fun other hother ↦ ?_⟩
    · change world.trace ++ _ = _
      rw [htrace, List.append_assoc]
    · rw [List.filterMap_append] at hother
      rcases List.mem_append.mp hother with hother | hother
      · exact absurd hother (handle_notMem_replies hnone other)
      · obtain rfl := Reply.handle.inj (List.mem_singleton.mp hother)
        exact ⟨path, hpath, (hopens other rfl).log _⟩

theorem fs_opendir_eq_ok {fs : FileSystem} {path : Path} {done : Done DirStream}
    (h : fs.opendir path = .ok done) :
    ∃ loc, fs.lookup true path = .ok loc ∧ fs.tree.isDir loc = true ∧
      done.value = ⟨loc, dot :: dotdot :: fs.tree.children loc⟩ := by
  unfold FileSystem.opendir at h
  split at h
  · exact nomatch h
  · next loc hloc =>
    split_ifs at h with hdir
    rw [← Except.ok.inj h]
    exact ⟨loc, hloc, hdir, rfl⟩

theorem serveOpendir_hands (table : HandleTable) (options : Options) {message : ClientMessage}
    (htype : message.type = fxpOpendir) (start : World) :
    HandsDirectory table options message start (serveOpendir table options message start).2 := by
  have hnotClose : message.type ≠ fxpClose := by
    rw [htype]
    decide
  have hrules := slotRules table options hnotClose start
  have hserve : Triple (At start (Untouched start)) (serveOpendir table options message)
      fun _ ↦ HandsDirectory table options message start := by
    refine Triple.bind (hrules.resolveSftpPath message.path) fun result ↦
      Triple.of_fact fun hresolves ↦ ?_
    cases result with
    | error error => exact fun _ h ↦ handsDirectory_of_none (h.1.2.concat rfl rfl)
    | ok canon =>
      have hopen : Triple (At start (Untouched start)) (opendir canon) fun result world ↦
          NoHandleSince start world ∧ ∀ dir, result = .ok dir →
            ∃ loc, start.fs.lookup true canon = .ok loc ∧ start.fs.tree.isDir loc = true ∧
              world.streams.lookup dir =
                some ⟨loc, dot :: dotdot :: start.fs.tree.children loc⟩ := by
        refine opendir_triple (fun _ _ h ↦ ⟨h.1.2.concat rfl rfl, fun _ h ↦ nomatch h⟩)
          fun world done h hdone ↦ ⟨Since.concat (h.1.2.concat rfl rfl) rfl rfl, fun dir hdir ↦ ?_⟩
        rw [h.2.fs] at hdone
        obtain ⟨loc, hloc, hisDir, hvalue⟩ := fs_opendir_eq_ok hdone
        refine ⟨loc, hloc, hisDir, ?_⟩
        rw [← Except.ok.inj hdir, ← hvalue]
        exact List.lookup_cons_self
      refine Triple.bind hopen fun result ↦ ?_
      cases result with
      | error error => exact fun _ h ↦ handsDirectory_of_none (h.1.concat rfl rfl)
      | ok dir =>
        intro world ⟨hnone, hdir⟩
        obtain ⟨loc, hloc, hisDir, hstream⟩ := hdir dir rfl
        exact replyHandle_hands (hresolves canon rfl) hloc hisDir world.nextAddress
          { world with nextAddress := world.nextAddress + 1 } ⟨hnone, hstream⟩
  exact hserve start ⟨⟨rfl, since_refl _ _⟩, quiet_refl _⟩

theorem serveRequest_of_opendir (table : HandleTable) (options : Options)
    (htype : message.type = fxpOpendir) :
    serveRequest table options message = serveOpendir table options message := by
  unfold serveRequest
  simp only [htype]
  rfl

/-- The handle that an OPENDIR request is answered with leads to the directory it names. -/
theorem answers_opendir (table : HandleTable) (options : Options)
    (htype : message.type = fxpOpendir) {handle : Bytes}
    (h : .handle handle ∈ answers table options message start) :
    ∃ path, Resolves start.fs options.root message.path path ∧
      OpensDirectory table start.fs path handle (serveMessage table options message start).2 := by
  obtain ⟨events, htrace, hhands⟩ :=
    serveOpendir_hands table options htype (start.log (.received message))
  rw [← serveRequest_of_opendir table options htype] at htrace
  rw [(answers_of_trace events rfl htrace).1] at h
  obtain ⟨path, hresolves, hopens⟩ := hhands handle h
  refine ⟨path, hresolves, ?_⟩
  rw [← serveRequest_of_opendir table options htype] at hopens
  exact hopens.log (.freed message)

end Opening

/-! ### Reading on -/

/-- The message is a request of the type on the handle. -/
def OnHandle (table : HandleTable) (type : UInt8) (handle : Bytes) (message : ClientMessage) :
    Prop :=
  message.type = type ∧ table.decode message.handle = table.decode handle

instance (table : HandleTable) (type : UInt8) (handle : Bytes) :
    DecidablePred (OnHandle table type handle) :=
  fun _ ↦ inferInstanceAs (Decidable (_ ∧ _))

/-- The name that a reply adds to the list. -/
def Reply.addedName : Reply → Option Name
  | .namesAdd entry _ _ => some entry
  | _ => none

/-- Every entry that a READDIR request on the handle comes to is read, and `lstat` fails
exactly on those in `fails`. -/
def LstatFailsOn (table : HandleTable) (handle : Bytes) (fails : Name → Bool) (world : World)
    (message : ClientMessage) : Prop :=
  OnHandle table fxpReaddir handle message → ∀ entry stream, Held table message world entry →
    world.streams.lookup entry.dir = some stream →
      Steady (lookUp world entry.path) (readFails world) (fun name ↦ !fails name) 64 0
        stream.pending

section Runs

variable {table : HandleTable} {options : Options} {handle : Bytes} {fails : Name → Bool}

/-- The names that the READDIR requests on the handle are answered with, one request after the
other. -/
def listedNames (table : HandleTable) (options : Options) (handle : Bytes) :
    List ClientMessage → World → List Name
  | [], _ => []
  | message :: messages, world =>
    (if OnHandle table fxpReaddir handle message then
        (answers table options message world).filterMap Reply.addedName else []) ++
      listedNames table options handle messages (serveMessage table options message world).2

theorem addedNames_map (found : List (Name × Stat)) :
    (found.map addition).filterMap Reply.addedName = found.map Prod.fst := by
  rw [List.filterMap_map]
  exact congrFun List.filterMap_eq_map found

theorem lookUp_name {world : World} {path : Path} {place : ℕ} {name : Name} {item : Name × Stat}
    (h : lookUp world path place name = some item) : item.1 = name := by
  unfold lookUp at h
  split_ifs at h
  split at h
  · exact nomatch h
  · rw [← Option.some.inj h]

variable (options) in
/-- One READDIR request either finds the end, or reports a batch and reads on. -/
theorem readdir_step {world : World} {message : ClientMessage} {slot : ℕ} {entry : HandleEntry}
    {loc : Loc} {names : List Name} (hslot : table.decode handle = some slot)
    (hdir : entry.isDir = true) (hlisting : Listing slot entry ⟨loc, names⟩ world)
    (hreads : OnHandle table fxpReaddir handle message)
    (hsteady : LstatFailsOn table handle fails world message) :
    (answers table options message world = [.status .eof ""] ∧ names = [] ∧
        Listing slot entry ⟨loc, []⟩ (serveMessage table options message world).2) ∨
      ∃ (found : List (Name × Stat)) (left : List Name),
        answers table options message world = found.map addition ++ [.names] ∧
          found.length ≤ 64 ∧
          Listing slot entry ⟨loc, left⟩ (serveMessage table options message world).2 ∧
            found.map Prod.fst ++ left.filter (fun name ↦ !fails name) =
                names.filter (fun name ↦ !fails name) ∧
              left.length < names.length := by
  have hheld : Held table message world entry := by
    rw [Held, hreads.2, hslot]
    exact hlisting.inSlot
  have hsame := hsteady hreads entry ⟨loc, names⟩ hheld hlisting.reads
  obtain ⟨hanswers, hslots, hstream⟩ :=
    answers_readdir options hreads.1 hheld hdir hlisting.reads
  have hafter : Listing slot entry ⟨loc, (nextBatch world entry.path names).2⟩
      (serveMessage table options message world).2 :=
    ⟨(congrFun hslots slot).trans hlisting.inSlot, hstream⟩
  by_cases hnames : names = []
  · subst hnames
    exact Or.inl ⟨hanswers.trans (listing_of_end (Or.inr rfl)), rfl, hafter⟩
  · have hread : readFails world 0 = false := by
      obtain ⟨name, rest, rfl⟩ := List.exists_cons_of_ne_nil hnames
      exact (Steady.head (by decide) hsame).1
    refine Or.inr ⟨_, _, hanswers.trans (listing_of_read hread hnames), batch_length 64 0 names,
      hafter, ?_, batch_left_length (by decide) hnames hread⟩
    exact (batch_append (fun _ _ _ ↦ lookUp_name) hsame).1

/-- The requests of a run on the handle go on from where the last one stopped. -/
theorem runAll_lists {slot : ℕ} {entry : HandleEntry} {loc : Loc}
    (hslot : table.decode handle = some slot) (hdir : entry.isDir = true)
    {messages : List ClientMessage} {world : World} {names : List Name}
    (hledger : Ledger table none world) (hlisting : Listing slot entry ⟨loc, names⟩ world)
    (hclose : ∀ message ∈ messages, ¬ OnHandle table fxpClose handle message)
    (hsteady : Allowed (serveMessage table options) (LstatFailsOn table handle fails) messages
      world) :
    ∃ left, Listing slot entry ⟨loc, left⟩
        (stateAfter (serveMessage table options) messages world) ∧
      listedNames table options handle messages world ++ left.filter (fun name ↦ !fails name) =
          names.filter (fun name ↦ !fails name) ∧
        (left = [] ∨ left.length + messages.countP (OnHandle table fxpReaddir handle) ≤
          names.length) := by
  induction messages generalizing world names with
  | nil => exact ⟨names, hlisting, rfl, Or.inr (Nat.le_refl _)⟩
  | cons message messages ih =>
    have hlater := List.forall_mem_cons.mp hclose
    have hledger' := serveMessage_ledger table options message world hledger
    by_cases hreads : OnHandle table fxpReaddir handle message
    · rw [listedNames, if_pos hreads, List.countP_cons_of_pos (by simpa using hreads)]
      rcases readdir_step options hslot hdir hlisting hreads hsteady.1 with
        ⟨hanswers, rfl, hafter⟩ | ⟨found, mid, hanswers, -, hafter, hsplit, hless⟩
      · obtain ⟨left, hend, hnames, hleft⟩ := ih hledger' hafter hlater.2 hsteady.2
        rw [hanswers]
        refine ⟨left, hend, hnames, Or.inl (hleft.elim id fun hlength ↦ ?_)⟩
        exact List.eq_nil_of_length_eq_zero (Nat.eq_zero_of_add_eq_zero_right
          (Nat.le_zero.mp hlength))
      · obtain ⟨left, hend, hnames, hleft⟩ := ih hledger' hafter hlater.2 hsteady.2
        refine ⟨left, hend, ?_, hleft.imp id fun hlength ↦ ?_⟩
        · rw [hanswers, List.filterMap_append, addedNames_map, ← hsplit, ← hnames,
            ← List.append_assoc]
          exact congrArg (· ++ _) (congrArg (· ++ _) (List.append_nil _))
        · rw [← Nat.add_assoc]
          exact Nat.succ_le_of_lt (hlength.trans_lt hless)
    · rw [listedNames, if_neg hreads, List.countP_cons_of_neg (by simpa using hreads)]
      have hafter :
          Listing slot entry ⟨loc, names⟩ (serveMessage table options message world).2 := by
        refine serveMessage_listing options hledger hlisting hdir (fun htype hdecode ↦ ?_)
          fun hcloses ↦ ?_
        · exact hreads ⟨htype, hdecode.trans hslot.symm⟩
        · exact hlater.1 ⟨hcloses.1, hcloses.2.trans hslot.symm⟩
      exact ih hledger' hafter hlater.2 hsteady.2

/-- The READDIR requests on a handle list the entries of its directory whose `lstat` does not
fail: at most 64 at a time, in their order and each once, until the end is reported, and from
then on nothing but the end. -/
structure ListsDirectory (table : HandleTable) (options : Options) (handle : Bytes)
    (entries : List Name) (fails : Name → Bool) (messages : List ClientMessage) (world : World) :
    Prop where
  batches : ∀ served message, served ++ [message] <+: messages →
    OnHandle table fxpReaddir handle message →
      let replies := answers table options message
        (stateAfter (serveMessage table options) served world)
      replies = [.status .eof ""] ∨ ∃ found : List (Name × Stat),
        replies = found.map addition ++ [.names] ∧ found.length ≤ 64
  inOrder : ∀ served, served <+: messages →
    listedNames table options handle served world <+: entries.filter (fun name ↦ !fails name)
  whole : ∀ served message, served ++ [message] <+: messages →
    OnHandle table fxpReaddir handle message →
      answers table options message (stateAfter (serveMessage table options) served world) =
          [.status .eof ""] →
        listedNames table options handle served world =
          entries.filter (fun name ↦ !fails name)
  stays : ∀ served message between later,
    served ++ message :: between ++ [later] <+: messages →
      OnHandle table fxpReaddir handle message → OnHandle table fxpReaddir handle later →
        answers table options message (stateAfter (serveMessage table options) served world) =
            [.status .eof ""] →
          answers table options later (stateAfter (serveMessage table options)
            (served ++ message :: between) world) = [.status .eof ""]
  ends : ∀ served message, served ++ [message] <+: messages →
    OnHandle table fxpReaddir handle message →
      entries.length ≤ served.countP (OnHandle table fxpReaddir handle) →
        answers table options message (stateAfter (serveMessage table options) served world) =
          [.status .eof ""]

/-- The handle is at the end of its directory exactly if the end is reported. -/
theorem readdir_eof_iff {world : World} {message : ClientMessage} {slot : ℕ}
    {entry : HandleEntry} {loc : Loc} {names : List Name}
    (hslot : table.decode handle = some slot) (hdir : entry.isDir = true)
    (hlisting : Listing slot entry ⟨loc, names⟩ world)
    (hreads : OnHandle table fxpReaddir handle message)
    (hsteady : LstatFailsOn table handle fails world message) :
    answers table options message world = [.status .eof ""] ↔ names = [] := by
  rcases readdir_step options hslot hdir hlisting hreads hsteady with
    ⟨hanswers, hnil, -⟩ | ⟨found, left, hanswers, -, -, -, hless⟩
  · exact ⟨fun _ ↦ hnil, fun _ ↦ hanswers⟩
  · constructor
    · intro heof
      rw [hanswers] at heof
      have hmem : Reply.names ∈ [Reply.status .eof ""] := heof ▸ by simp
      exact absurd hmem (by decide)
    · rintro rfl
      exact absurd hless (Nat.not_lt_zero _)

theorem listsDirectory_of_listing {slot : ℕ} {entry : HandleEntry} {loc : Loc}
    (hslot : table.decode handle = some slot) (hdir : entry.isDir = true)
    {messages : List ClientMessage} {world : World} {entries : List Name}
    (hledger : Ledger table none world) (hlisting : Listing slot entry ⟨loc, entries⟩ world)
    (hclose : ∀ message ∈ messages, ¬ OnHandle table fxpClose handle message)
    (hsteady : Allowed (serveMessage table options) (LstatFailsOn table handle fails) messages
      world) :
    ListsDirectory table options handle entries fails messages world := by
  have hbefore : ∀ served more, served ++ more = messages →
      ∃ left, Listing slot entry ⟨loc, left⟩
          (stateAfter (serveMessage table options) served world) ∧
        listedNames table options handle served world ++ left.filter (fun name ↦ !fails name) =
            entries.filter (fun name ↦ !fails name) ∧
          (left = [] ∨ left.length + served.countP (OnHandle table fxpReaddir handle) ≤
            entries.length) := by
    rintro served more rfl
    exact runAll_lists hslot hdir hledger hlisting
      (fun message hmem ↦ hclose message (List.mem_append_left _ hmem))
      (allowed_append.mp hsteady).1
  have hat : ∀ served message, served ++ [message] <+: messages →
      LstatFailsOn table handle fails (stateAfter (serveMessage table options) served world)
        message :=
    fun served message h ↦ allowed_iff_forall_prefix.mp hsteady served message h
  constructor
  · intro served message hserved hreads
    obtain ⟨after, hafter⟩ := hserved
    obtain ⟨left, hleft, -, -⟩ := hbefore served ([message] ++ after) (by simpa using hafter)
    rcases readdir_step options hslot hdir hleft hreads (hat served message ⟨after, hafter⟩) with
      ⟨hanswers, -, -⟩ | ⟨found, -, hanswers, hlength, -, -, -⟩
    · exact Or.inl hanswers
    · exact Or.inr ⟨found, hanswers, hlength⟩
  · rintro served ⟨after, hafter⟩
    obtain ⟨left, -, hnames, -⟩ := hbefore served after hafter
    exact ⟨_, hnames⟩
  · intro served message hserved hreads heof
    obtain ⟨after, hafter⟩ := hserved
    obtain ⟨left, hleft, hnames, -⟩ := hbefore served ([message] ++ after) (by simpa using hafter)
    have hnil := (readdir_eof_iff hslot hdir hleft hreads
      (hat served message ⟨after, hafter⟩)).mp heof
    rw [← hnames, hnil, List.filter_nil, List.append_nil]
  · intro served message between later hserved hreads hlater heof
    obtain ⟨after, rfl⟩ := hserved
    have hlast := hat (served ++ message :: between) later ⟨after, rfl⟩
    have hfirst := hat served message ⟨between ++ [later] ++ after, by simp⟩
    obtain ⟨left, hleft, -, -⟩ :=
      hbefore served (message :: between ++ [later] ++ after) (by simp)
    obtain rfl := (readdir_eof_iff hslot hdir hleft hreads hfirst).mp heof
    have hledger' : Ledger table none (stateAfter (serveMessage table options) served world) :=
      invariant_of_keeps (serveMessage_ledger table options) served hledger
    rw [List.append_assoc served, List.append_assoc served, List.append_assoc,
      allowed_append] at hsteady
    obtain ⟨rest, hend, -, hnone⟩ := runAll_lists hslot hdir hledger' hleft
      (fun other hmem ↦ hclose other (List.mem_append_left _
        (List.mem_append_left _ (List.mem_append_right served hmem))))
      (allowed_append.mp hsteady.2).1
    rw [← stateAfter_append] at hend
    refine (readdir_eof_iff hslot hdir hend hlater hlast).mpr ?_
    refine hnone.elim id fun hlength ↦ List.eq_nil_of_length_eq_zero ?_
    exact Nat.eq_zero_of_add_eq_zero_right (Nat.le_zero.mp hlength)
  · intro served message hserved hreads hcount
    obtain ⟨after, hafter⟩ := hserved
    obtain ⟨left, hleft, -, hend⟩ := hbefore served ([message] ++ after) (by simpa using hafter)
    refine (readdir_eof_iff hslot hdir hleft hreads (hat served message ⟨after, hafter⟩)).mpr ?_
    refine hend.elim id fun hlength ↦ List.eq_nil_of_length_eq_zero ?_
    omega

/-- Whatever was requested before, an OPENDIR request that is answered with a handle makes
the READDIR requests on it list the directory that was named, while other requests may come in
between. -/
theorem readdir_lists_directory (table : HandleTable) (options : Options) (fs : FileSystem)
    (fds : List (ℤ × OpenFile)) (streams : List (ℕ × DirStream)) (faults : List Fault)
    (before : List ClientMessage) (opening : ClientMessage) (htype : opening.type = fxpOpendir)
    (handle : Bytes) (messages : List ClientMessage) (fails : Name → Bool)
    (hhandle : .handle handle ∈ answers table options opening
      (stateAfter (serveMessage table options) before (World.begin fs fds streams faults)))
    (hclose : ∀ message ∈ messages, ¬ OnHandle table fxpClose handle message)
    (hsteady : Allowed (serveMessage table options) (LstatFailsOn table handle fails) messages
      (stateAfter (serveMessage table options) (before ++ [opening])
        (World.begin fs fds streams faults))) :
    let world := stateAfter (serveMessage table options) before
      (World.begin fs fds streams faults)
    ∃ path loc, Resolves world.fs options.root opening.path path ∧
      world.fs.lookup true path = .ok loc ∧ world.fs.tree.isDir loc = true ∧
        ListsDirectory table options handle (dot :: dotdot :: world.fs.tree.children loc) fails
          messages (stateAfter (serveMessage table options) (before ++ [opening])
            (World.begin fs fds streams faults)) := by
  rw [stateAfter_append] at hsteady ⊢
  obtain ⟨path, hresolves, slot, entry, loc, hslot, hdir, -, hloc, hisDir, hlisting⟩ :=
    answers_opendir table options htype hhandle
  have hledger : Ledger table none (stateAfter (serveMessage table options) before
      (World.begin fs fds streams faults)) :=
    invariant_of_keeps (serveMessage_ledger table options) before
      (ledger_begin table fs fds streams faults)
  exact ⟨path, loc, hresolves, hloc, hisDir, listsDirectory_of_listing hslot hdir
    (serveMessage_ledger table options opening _ hledger) hlisting hclose hsteady⟩

theorem lstatFailsOn_of_held {world : World} {message : ClientMessage} (entry : HandleEntry)
    (stream : DirStream) (hheld : (table.decode message.handle).bind world.slots = some entry)
    (hstream : world.streams.lookup entry.dir = some stream)
    (h : Steady (lookUp world entry.path) (readFails world) (fun name ↦ !fails name) 64 0
      stream.pending) : LstatFailsOn table handle fails world message := by
  intro _ other found hother hfound
  obtain rfl := Option.some.inj (hheld.symm.trans hother)
  obtain rfl := Option.some.inj (hstream.symm.trans hfound)
  exact h

/-- The directory `/srv`, where the `lstat` of `..` fails, is listed with `.` and `f`. -/
theorem readdir_lists_directory_srv :
    ListsDirectory HandleTable.firstFree srvServer [0, 0, 0, 0] [dot, dotdot, ascii "f"]
      (fun name ↦ name = dotdot)
      [{ type := fxpReaddir, handle := [0, 0, 0, 0] },
        { type := fxpOpendir, filename := some (ascii "/") },
        { type := fxpReaddir, handle := [0, 0, 0, 0] }]
      (stateAfter (serveMessage HandleTable.firstFree srvServer)
        [{ type := fxpOpendir, filename := some (ascii "/") }]
        (World.begin singleFile [] [] (List.replicate 7 .none ++ [.fail .eacces]))) := by
  obtain ⟨path, loc, ⟨-, -, hpath, -⟩, hloc, -, hlists⟩ :=
    readdir_lists_directory HandleTable.firstFree srvServer singleFile [] []
      (List.replicate 7 .none ++ [.fail .eacces]) []
      { type := fxpOpendir, filename := some (ascii "/") } rfl [0, 0, 0, 0]
      [{ type := fxpReaddir, handle := [0, 0, 0, 0] },
        { type := fxpOpendir, filename := some (ascii "/") },
        { type := fxpReaddir, handle := [0, 0, 0, 0] }]
      (fun name ↦ name = dotdot) (by decide +kernel) (by decide)
      ⟨lstatFailsOn_of_held ⟨0, true, -1, 1, ⟨true, [ascii "srv"]⟩⟩
          ⟨[ascii "srv"], [dot, dotdot, ascii "f"]⟩
          (by decide +kernel) (by decide +kernel) (by decide +kernel),
        fun h ↦ absurd h.1 (by decide),
        lstatFailsOn_of_held ⟨0, true, -1, 1, ⟨true, [ascii "srv"]⟩⟩ ⟨[ascii "srv"], []⟩
          (by decide +kernel) (by decide +kernel) (by decide +kernel), trivial⟩
  have hcanon : singleFile.weaklyCanonical
      (srvServer.root.join (relativePath (ascii "/"))) = .ok ⟨true, [ascii "srv"]⟩ := by
    decide +kernel
  obtain rfl := Except.ok.inj (hpath.symm.trans hcanon)
  have hlookup : singleFile.lookup true ⟨true, [ascii "srv"]⟩ = .ok [ascii "srv"] := by
    decide +kernel
  obtain rfl := Except.ok.inj (hloc.symm.trans hlookup)
  exact hlists

end Runs

end LibSshpp.SftpServer
