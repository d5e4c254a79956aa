import LibSshpp.Posix.ConfinedCalls
import LibSshpp.SftpServer.OwnResources
import LibSshpp.SftpServer.ReadOnly

/-!
Confinement of the server to its root. `resolve_sftp_path` only lets paths pass that lead
down from the root, so that in a tree whose links stay inside no call leaves the root. What
the server does not check is the tree it makes: a SYMLINK, MKDIR or RENAME request can bring a
link in place that leads outside, an RMDIR request can take the root itself away, and the
listing of the root inspects its `..`. `Allows` excludes these, and then every request
keeps the root confined.
-/

set_option autoImplicit false
set_option relaxedAutoImplicit false

namespace LibSshpp.SftpServer

open Posix Sftp Program

/-! ### Accepted paths -/

theorem under_of_elements {root : Loc} {canon : Path}
    (h : Path.elements ⟨true, root⟩ <+: canon.elements) :
    canon.absolute = true ∧ root <+: canon.comps := by
  obtain ⟨absolute, comps⟩ := canon
  cases absolute with
  | false =>
    exfalso
    obtain ⟨rest, hrest⟩ := h
    have hmem : (none : Option Name) ∈ comps.map some := by
      change none :: root.map some ++ rest = comps.map some at hrest
      rw [← hrest]
      exact List.mem_cons_self
    simp at hmem
  | true =>
    refine ⟨rfl, ?_⟩
    change none :: root.map some <+: none :: comps.map some at h
    rw [List.cons_prefix_cons, List.prefix_map_iff_of_injective (Option.some_injective _)] at h
    exact h.2

/-- A path that `resolve_sftp_path` accepts leads down from the root. -/
theorem Resolves.under {fs : FileSystem} {rootPath canon : Path} {root : Loc} {sftpPath : Bytes}
    (h : Resolves fs rootPath sftpPath canon) (hroot : fs.resolve true rootPath = .found root) :
    canon.Under root := by
  obtain ⟨canonRoot, hcanonRoot, hcanon, helements⟩ := h
  rw [FileSystem.weaklyCanonical_of_found hroot] at hcanonRoot
  rw [← Except.ok.inj hcanonRoot] at helements
  have hunder := under_of_elements helements
  exact ⟨hunder.1, hunder.2, FileSystem.noClimb_of_weaklyCanonical hcanon hunder.1⟩

/-! ### The guarded server -/

/-- A call that touches nothing outside the root. -/
def Event.Inside (root : Loc) : Event → Prop
  | .called _ touched => ∀ loc ∈ touched, root <+: loc
  | _ => True

/-- A stream of a directory inside the root. -/
def StreamInside (root : Loc) (stream : DirStream) : Prop :=
  root <+: stream.loc ∧ ∀ name ∈ stream.pending, IsListed name

/-- The root is confined, its path leads to it, and all that the server has opened, keeps in
its table and has touched lies inside. -/
structure Guarded (rootPath : Path) (root : Loc) (before world : World) : Prop where
  confined : Confined root world.fs.tree
  leads : LeadsTo world.fs rootPath root
  owned : Owned (fun file ↦ root <+: file.loc) (StreamInside root) before world
  paths : ∀ slot entry, world.slots slot = some entry → entry.path.Under root
  events : Since (Event.Inside root) before world

/-- What a request must not do: bring a link in place, or let one climb on, that leads
outside; remove the root; or list the `..` of the root. -/
structure Allows (table : HandleTable) (options : Options) (root : Loc) (world : World)
    (message : ClientMessage) : Prop where
  mkdir : message.type = fxpMkdir → options.readOnly = false → ∀ canon done,
    Resolves world.fs options.root message.path canon →
      world.fs.mkdir canon (message.mode 0o755) = .ok done →
        FillsInside root world.fs.tree done.fs.tree
  symlink : message.type = fxpSymlink → options.readOnly = false → ∀ canon done,
    Resolves world.fs options.root message.dataPath canon →
      world.fs.symlink message.path canon = .ok done →
        FillsInside root world.fs.tree done.fs.tree
  rename : message.type = fxpRename → options.readOnly = false → ∀ source dest done,
    Resolves world.fs options.root message.path source →
      Resolves world.fs options.root message.dataPath dest →
        world.fs.rename source dest = .ok done →
          FillsInside root (world.fs.withoutEntry dest) done.fs.tree
  rmdir : message.type = fxpRmdir → options.readOnly = false → ∀ canon,
    Resolves world.fs options.root message.path canon →
      canon.entry.comps = root → root ≠ [] → world.fs.tree.children root ≠ []
  readdir : message.type = fxpReaddir → ∀ entry stream, Held table message world entry →
    entry.isDir = true → world.streams.lookup entry.dir = some stream →
      dotdot ∈ stream.pending → root = [] ∨ world.fs.resolve true entry.path.entry ≠ .found root

section Guarded

variable {rootPath : Path} {root : Loc} {before world : World}

/-- The same file system with other resources, filled slots apart. -/
theorem Guarded.withOwned (h : Guarded rootPath root before world) {after : World}
    (hfs : after.fs = world.fs)
    (howned : Owned (fun file ↦ root <+: file.loc) (StreamInside root) before after)
    (hslots : ∀ slot entry, after.slots slot = some entry → world.slots slot = some entry)
    (hevents : Since (Event.Inside root) before after) : Guarded rootPath root before after where
  confined := by
    rw [hfs]
    exact h.confined
  leads := by
    rw [hfs]
    exact h.leads
  owned := howned
  paths slot entry hentry := h.paths slot entry (hslots slot entry hentry)
  events := hevents

theorem Guarded.transfer (h : Guarded rootPath root before world) {after : World}
    (hfs : after.fs = world.fs) (hfds : after.fds = world.fds)
    (hstreams : after.streams = world.streams) (hslots : after.slots = world.slots)
    (hevents : Since (Event.Inside root) before after) : Guarded rootPath root before after :=
  h.withOwned hfs (h.owned.transfer hfds hstreams hslots) (fun _ _ hentry ↦ hslots ▸ hentry) hevents

theorem Guarded.under (h : Guarded rootPath root before world) {sftpPath : Bytes} {canon : Path}
    (hcanon : Resolves world.fs rootPath sftpPath canon) : canon.Under root :=
  hcanon.under h.leads.found

/-- The world after a call that stays inside. -/
theorem Guarded.called (h : Guarded rootPath root before world) {α : Type} {done : Done α}
    (hinside : StaysInside root world.fs done) (call : PosixCall) :
    Guarded rootPath root before (world.called call done.fs done.touched) where
  confined := hinside.confined
  leads := hinside.leadsTo h.leads
  owned := h.owned.transfer rfl rfl rfl
  paths := h.paths
  events := by
    have hevent : Event.Inside root (.called call done.touched) := hinside.touched
    exact h.events.concat hevent rfl

/-- The world after a call that failed. -/
theorem Guarded.failed (h : Guarded rootPath root before world) (call : PosixCall) :
    Guarded rootPath root before (world.called call world.fs []) := by
  have hevent : Event.Inside root (.called call []) := fun _ hloc ↦ nomatch hloc
  exact h.transfer rfl rfl rfl rfl (h.events.concat hevent rfl)

/-- The world after an event that is no call. -/
theorem Guarded.noted (h : Guarded rootPath root before world) {event : Event}
    (hevent : event.Inside root) : Guarded rootPath root before (world.log event) :=
  h.transfer rfl rfl rfl rfl (h.events.concat hevent rfl)

theorem perform_guarded {α : Type} {start : World} {call : PosixCall}
    {op : World → Except Errno (Done α)}
    (hop : ∀ world done, Guarded rootPath root before world → Quiet start world →
      op world = .ok done → StaysInside root world.fs done) :
    Triple (At start (Guarded rootPath root before)) (perform call op)
      fun _ ↦ Guarded rootPath root before :=
  perform_triple (fun _ _ h ↦ h.1.failed call)
    fun world done h hdone ↦ h.1.called (hop world done h.1 h.2 hdone) call

/-- A call on a descriptor of the table. -/
theorem onDescriptor_inside {table : HandleTable} {message : ClientMessage} {start : World}
    {entry : HandleEntry} (hheld : Held table message start entry) (hfile : entry.isDir = false)
    {α : Type} {op : OpenFile → Except Errno (Done α)} (h : Guarded rootPath root before world)
    (hquiet : Quiet start world) {done : Done α}
    (hdone : onDescriptor entry.fd op world = .ok done)
    (hop : ∀ file, root <+: file.loc → op file = .ok done → StaysInside root world.fs done) :
    StaysInside root world.fs done := by
  obtain ⟨slot, hslot⟩ := hheld.slot
  rw [← hquiet.slots] at hslot
  unfold onDescriptor at hdone
  split at hdone
  · exact nomatch hdone
  · next file hlookup => exact hop file (h.owned.file hslot hfile hlookup) hdone

/-- A program that leaves the file system alone, keeps the resources in order, fills no
slot and makes no call. -/
theorem guarded_of_owned {α : Type} {program : ServerM α} {pre : World → Prop}
    (hpre : ∀ world, pre world → Guarded rootPath root before world)
    (hfs : ∀ world, (program world).2.fs = world.fs)
    (hslots : ∀ world slot entry, (program world).2.slots slot = some entry →
      world.slots slot = some entry)
    (hevents : Keeps (Since (Event.Inside root) before) program)
    (howned : Triple pre program fun _ ↦
      Owned (fun file ↦ root <+: file.loc) (StreamInside root) before) :
    Triple pre program fun _ ↦ Guarded rootPath root before := by
  intro world h
  have hworld := hpre world h
  exact hworld.withOwned (hfs world) (howned world h) (hslots world) (hevents world hworld.events)

theorem slots_of_remove {table : HandleTable} {entry other : HandleEntry} {slot : ℕ}
    (h : (table.sftpHandleRemove entry world).2.slots slot = some other) :
    world.slots slot = some other := by
  unfold HandleTable.sftpHandleRemove at h
  split at h
  · exact h
  · next place _ =>
    by_cases heq : slot = place
    · simp only [heq, Function.update_self] at h
      exact nomatch h
    · simpa only [Function.update_of_ne heq] using h

/-- A file inside gets a descriptor. -/
theorem Guarded.newDescriptor (h : Guarded rootPath root before world) {file : OpenFile}
    (hfile : root <+: file.loc) (path : Path) :
    Guarded rootPath root before (newDescriptor file world).2 ∧
      ((Resource.fd (SftpServer.newDescriptor file world).1).entry path 0).IsOwn before := by
  obtain ⟨howned, hown⟩ := newDescriptor_owned h.owned file hfile path
  have hevent : Event.Inside root (.opened (.fd (SftpServer.newDescriptor file world).1)) := trivial
  exact ⟨h.withOwned rfl howned (fun _ _ hentry ↦ hentry) (h.events.concat hevent rfl), hown⟩

/-- A directory inside gets a stream. -/
theorem Guarded.newStream (h : Guarded rootPath root before world) {stream : DirStream}
    (hstream : StreamInside root stream) (path : Path) :
    Guarded rootPath root before (newStream stream world).2 ∧
      ((Resource.stream (SftpServer.newStream stream world).1).entry path 0).IsOwn before := by
  obtain ⟨howned, hown⟩ := newStream_owned h.owned stream hstream path
  have hevent : Event.Inside root
      (.opened (.stream (SftpServer.newStream stream world).1)) := trivial
  exact ⟨h.withOwned rfl howned (fun _ _ hentry ↦ hentry) (h.events.concat hevent rfl), hown⟩

/-- An entry under the root is stored in a slot. -/
theorem Guarded.stored (h : Guarded rootPath root before world) {entry : HandleEntry}
    (hown : entry.IsOwn before) (hpath : entry.path.Under root) (slot : ℕ) :
    Guarded rootPath root before
      { world.dropFault with slots := Function.update world.slots slot (some entry) } := by
  refine ⟨h.confined, h.leads, h.owned.stored hown slot, ?_, h.events⟩
  intro place other hother
  by_cases heq : place = slot
  · simp only [heq, Function.update_self] at hother
    rw [← Option.some.inj hother]
    exact hpath
  · simp only [Function.update_of_ne heq] at hother
    exact h.paths place other hother

end Guarded

/-! ### Listing a directory -/

/-- Every stream is one that was there at `start`, with no name that was not still to be
read then. -/
def StreamsSince (start world : World) : Prop :=
  ∀ address stream, world.streams.lookup address = some stream →
    ∃ old, start.streams.lookup address = some old ∧ stream.pending ⊆ old.pending

theorem StreamsSince.advance {start world after : World} (h : StreamsSince start world)
    {address : ℕ} {stream : DirStream} (hstream : world.streams.lookup address = some stream)
    (hstreams : after.streams = (address, { stream with pending := stream.pending.tail }) ::
      world.streams.filter (·.1 ≠ address)) : StreamsSince start after := by
  intro other found hfound
  rw [hstreams] at hfound
  by_cases heq : other = address
  · rw [heq, List.lookup_cons_self] at hfound
    obtain ⟨old, hold, hpending⟩ := h address stream hstream
    rw [← Option.some.inj hfound, heq]
    exact ⟨old, hold, fun name hname ↦ hpending (List.mem_of_mem_tail hname)⟩
  · have hne : (other == address) = false := by simpa using heq
    rw [List.lookup_cons, hne] at hfound
    exact h other found ((lookup_filter_ne heq).symm.trans hfound)

def guardedStages (table : HandleTable) (message : ClientMessage) (rootPath : Path) (root : Loc)
    (before start : World) : Stages where
  pending := Guarded rootPath root before
  fresh resource path world := Guarded rootPath root before world ∧
    (resource.entry path 0).IsOwn before ∧ path.Under root
  holding entry world := Guarded rootPath root before world ∧ entry.IsOwn before ∧
    entry.path.Under root
  granted _ := Guarded rootPath root before
  reading world := Guarded rootPath root before world ∧ world.fs = start.fs ∧
    world.slots = start.slots ∧ StreamsSince start world
  named name := ∀ entry, Held table message start entry → ∃ stream,
    start.streams.lookup entry.dir = some stream ∧ name ∈ stream.pending
  done := Guarded rootPath root before

section Rules

variable {table : HandleTable} {options : Options} {message : ClientMessage} {root : Loc}
  {before start : World}

/-- A name that has been read from a held stream was still to be read at `start`. -/
theorem named_of_read {entry : HandleEntry} (hheld : Held table message start entry)
    {world : World} (h : StreamsSince start world) {stream : DirStream}
    (hstream : world.streams.lookup entry.dir = some stream) {name : Name}
    (hname : name ∈ stream.pending) :
    (guardedStages table message options.root root before start).named name := by
  intro other hother
  obtain rfl : entry = other := Option.some.inj (hheld.symm.trans hother)
  obtain ⟨old, hold, hpending⟩ := h entry.dir stream hstream
  exact ⟨old, hold, hpending hname⟩

/-- `readdir` on a held stream. -/
theorem readdir_guarded {entry : HandleEntry} (hheld : Held table message start entry)
    (hdir : entry.isDir = true) :
    let stages := guardedStages table message options.root root before start
    Triple stages.reading (readdir entry.dir) fun name world ↦
      stages.reading world ∧ ∀ found, name = some found → stages.named found := by
  intro stages
  refine readdir_triple ?_ ?_
  · intro world ⟨hguarded, hfs, hslots, hsince⟩
    exact ⟨⟨hguarded.failed _, hfs, hslots, hsince⟩, fun _ hfound ↦ nomatch hfound⟩
  · intro world stream ⟨hguarded, hfs, hslots, hsince⟩ hstream
    obtain ⟨slot, hslot⟩ := hheld.slot
    have hinside : StreamInside root stream :=
      hguarded.owned.stream (by rw [hslots, hslot]) hdir hstream
    have hevent : Event.Inside root (.called (.readdir entry.dir) [stream.loc]) :=
      touched_singleton hinside.1
    have hnext : StreamInside root { stream with pending := stream.pending.tail } :=
      ⟨hinside.1, fun name hname ↦ hinside.2 name (List.mem_of_mem_tail hname)⟩
    refine ⟨⟨hguarded.withOwned rfl ?_ (fun _ _ hentry ↦ hentry)
      (hguarded.events.concat hevent rfl), hfs, hslots, hsince.advance hstream rfl⟩, ?_⟩
    · exact hguarded.owned.advance (mem_of_lookup hstream) (fun _ ↦ hnext) rfl rfl rfl
    · intro found hfound
      exact named_of_read hheld hsince hstream (List.mem_of_head? hfound)

/-- `lstat` on an entry of a held directory. -/
theorem lstatChild_guarded (hstart : Guarded options.root root before start)
    (hallows : Allows table options root start message) (htype : message.type = fxpReaddir)
    {entry : HandleEntry} (hheld : Held table message start entry) (hdir : entry.isDir = true)
    (name : Name) :
    let stages := guardedStages table message options.root root before start
    stages.named name →
      Keeps stages.reading (SftpServer.lstat (entry.path.join (Path.ofBytes name))) := by
  intro stages hnamed
  obtain ⟨slot, hslot⟩ := hheld.slot
  obtain ⟨stream, hstream, hpending⟩ := hnamed entry hheld
  have hlisted := (hstart.owned.stream hslot hdir hstream).2 name hpending
  have hpath := hstart.paths slot entry hslot
  have hinside := hstart.confined.child_inside hpath hlisted fun heq ↦
    hallows.readdir htype entry stream hheld hdir hstream (heq ▸ hpending)
  refine perform_triple ?_ ?_
  · intro world _ ⟨hguarded, hfs, hslots, hsince⟩
    exact ⟨hguarded.failed _, hfs, hslots, hsince⟩
  · intro world done ⟨hguarded, hfs, hslots, hsince⟩ hdone
    have hstays : StaysInside root world.fs done :=
      hguarded.confined.statPath (by rw [hfs]; exact hinside) hdone
    exact ⟨hguarded.called hstays _, (FileSystem.fs_of_statPath hdone).trans hfs, hslots, hsince⟩

/-- A call on an accepted path. -/
theorem onPath_guarded (hstart : Guarded options.root root before start) {α : Type}
    {sftpPath : Bytes} {canon : Path} (hcanon : Resolves start.fs options.root sftpPath canon)
    {call : PosixCall} (op : FileSystem → Except Errno (Done α))
    (hop : Confined root start.fs.tree → canon.Under root → ∀ done, op start.fs = .ok done →
      StaysInside root start.fs done) :
    Triple (At start (Guarded options.root root before)) (perform call fun world ↦ op world.fs)
      fun _ ↦ Guarded options.root root before := by
  refine perform_guarded fun world done _ hquiet hdone ↦ ?_
  rw [hquiet.fs] at hdone ⊢
  exact hop hstart.confined (hstart.under hcanon) done hdone

theorem guardedRules (hstart : Guarded options.root root before start)
    (hallows : Allows table options root start message) :
    RequestRules table options message start
      (guardedStages table message options.root root before start) where
  canonical path := by
    intro world h
    unfold weaklyCanonical
    split <;> exact h.transfer rfl rfl rfl rfl h.events
  reply _ _ _ := fun _ h ↦ h.noted trivial
  lstat {canon} hcanon := onPath_guarded hstart hcanon (·.lstat canon)
    fun hconfined hunder _ hdone ↦ hconfined.statPath (hconfined.resolve_inside hunder _) hdone
  stat {canon} hcanon := onPath_guarded hstart hcanon (·.stat canon)
    fun hconfined hunder _ hdone ↦ hconfined.statPath (hconfined.resolve_inside hunder _) hdone
  readlink {canon} hcanon := onPath_guarded hstart hcanon (·.readlink canon 4095)
    fun hconfined hunder _ hdone ↦ hconfined.readlink hunder hdone
  statEntry {entry} hheld _ := by
    obtain ⟨slot, hslot⟩ := hheld.slot
    refine perform_guarded fun world done hguarded hquiet hdone ↦ ?_
    have hunder := hguarded.paths slot entry (by rw [hquiet.slots, hslot])
    exact hguarded.confined.statPath (hguarded.confined.resolve_inside hunder _) hdone
  fstat hheld hfile := perform_guarded fun _ _ hguarded hquiet hdone ↦
    onDescriptor_inside hheld hfile hguarded hquiet hdone fun _ hinside hdone ↦
      hguarded.confined.fstat hinside hdone
  pread hheld hfile _ _ := perform_guarded fun _ _ hguarded hquiet hdone ↦
    onDescriptor_inside hheld hfile hguarded hquiet hdone fun _ hinside hdone ↦
      hguarded.confined.pread hinside hdone
  pwrite _ _ hheld hfile _ _ := perform_guarded fun _ _ hguarded hquiet hdone ↦
    onDescriptor_inside hheld hfile hguarded hquiet hdone fun _ hinside hdone ↦
      hguarded.confined.pwrite hinside hdone
  read _ _ _ _ _ h := by
    refine ⟨h.1, h.2.fs, h.2.slots, fun address stream hstream ↦ ?_⟩
    exact ⟨stream, by rw [← h.2.streams, hstream], fun _ hname ↦ hname⟩
  readdir _ _ hheld hdir := readdir_guarded hheld hdir
  lstatChild htype _ hheld hdir name hnamed :=
    lstatChild_guarded hstart hallows htype hheld hdir name hnamed
  collect _ _ _ := fun _ h ↦ ⟨h.1.noted trivial, h.2⟩
  listed _ h := h.1
  openFile _ canon hcanon := by
    refine openFile_triple (fun _ _ h ↦ h.1.failed _) ?_
    intro world done h hdone opened
    have hunder := h.1.under (by rw [h.2.fs]; exact hcanon)
    obtain ⟨hstays, hfile⟩ := h.1.confined.openFile hunder hdone
    have hopened : Guarded options.root root before opened := h.1.called hstays _
    obtain ⟨hguarded, hown⟩ := hopened.newDescriptor hfile canon
    exact ⟨hguarded, hown, hunder⟩
  opendir {canon} hcanon := by
    refine opendir_triple (fun _ _ h ↦ h.1.failed _) ?_
    intro world done h hdone opened
    have hunder := h.1.under (by rw [h.2.fs]; exact hcanon)
    obtain ⟨hstays, hstream⟩ := h.1.confined.opendir hunder hdone
    have hopened : Guarded options.root root before opened := h.1.called hstays _
    obtain ⟨hguarded, hown⟩ := hopened.newStream hstream canon
    exact ⟨hguarded, hown, hunder⟩
  newAddress resource path := fun _ h ↦ ⟨h.1.transfer rfl rfl rfl rfl h.1.events,
    isOwn_entry h.2.1 _, by cases resource <;> exact h.2.2⟩
  alloc entry := alloc_triple (fun _ h ↦ ⟨h.1.transfer rfl rfl rfl rfl h.1.events, h.2⟩)
    fun _ slot h _ _ ↦ h.1.stored h.2.1 h.2.2 slot
  abandon entry := guarded_of_owned (fun _ h ↦ h.1) (closeHandle_fs entry)
    (fun world slot other h ↦ by rwa [closeHandle_slots] at h)
    (closeHandle_since (fun _ ↦ trivial) entry)
    ((closeHandle_owned entry).mono (fun _ h ↦ ⟨h.1.owned, h.2.1⟩) fun _ _ h ↦ h)
  grant _ := fun _ h ↦ h.noted trivial
  release _ entry hheld := guarded_of_owned (fun _ h ↦ h.1)
    (fun world ↦ (closeHandle_fs entry _).trans (remove_fs table entry world))
    (fun world slot other h ↦ slots_of_remove (by rwa [← closeHandle_slots entry]))
    (Keeps.bind (remove_since table entry) fun _ ↦ closeHandle_since (fun _ ↦ trivial) entry)
    ((release_owned hheld).mono (fun _ h ↦ ⟨h.1.owned, h.2⟩) fun _ _ h ↦ h)
  unlink _ canon hcanon := onPath_guarded hstart hcanon (·.unlink canon)
    fun hconfined hunder _ hdone ↦ hconfined.unlink hunder hdone
  mkdir htype hwritable canon hcanon := onPath_guarded hstart hcanon
    (·.mkdir canon (message.mode 0o755))
    fun hconfined hunder done hdone ↦
      hconfined.mkdir hunder hdone (hallows.mkdir htype hwritable canon done hcanon hdone)
  rmdir htype hwritable canon hcanon := onPath_guarded hstart hcanon (·.rmdir canon)
    fun hconfined hunder done hdone ↦
      hconfined.rmdir hunder hdone (hallows.rmdir htype hwritable canon hcanon)
  rename htype hwritable source dest hsource hdest := onPath_guarded hstart hsource
    (·.rename source dest)
    fun hconfined hunder done hdone ↦
      hconfined.rename hunder (hstart.under hdest) hdone
        (hallows.rename htype hwritable source dest done hsource hdest hdone)
  symlink htype hwritable canon hcanon := onPath_guarded hstart hcanon
    (·.symlink message.path canon)
    fun hconfined hunder done hdone ↦
      hconfined.symlink hunder hdone (hallows.symlink htype hwritable canon done hcanon hdone)

end Rules

/-! ### The conversation -/

section Conversation

variable (table : HandleTable) (options : Options) {root : Loc}

theorem serveMessage_guarded (before : World) (message : ClientMessage) :
    Triple (fun world ↦ Guarded options.root root before world ∧
        Allows table options root world message)
      (serveMessage table options message) fun _ ↦ Guarded options.root root before := by
  intro world ⟨hguarded, hallows⟩
  have hstart : Guarded options.root root before (world.log (.received message)) :=
    hguarded.noted trivial
  have hserved := (guardedRules hstart ⟨hallows.mkdir, hallows.symlink, hallows.rename,
    hallows.rmdir, hallows.readdir⟩).request (world.log (.received message))
    ⟨hstart, quiet_refl _⟩
  exact Guarded.noted hserved trivial

theorem guarded_begin {fs : FileSystem} {rootPath : Path} (hroot : LeadsTo fs rootPath root)
    (hconfined : Confined root fs.tree) (fds : List (ℤ × OpenFile)) (streams : List (ℕ × DirStream))
    (faults : List Fault) :
    Guarded rootPath root (World.begin fs fds streams faults)
      (World.begin fs fds streams faults) where
  confined := hconfined
  leads := hroot
  owned := owned_begin _ _ fs fds streams faults
  paths _ _ h := nomatch h
  events := since_refl _ _

/-- The requests of all other types are allowed. -/
theorem allows_of_type {world : World} {message : ClientMessage}
    (h : message.type ∉ [fxpMkdir, fxpSymlink, fxpRename, fxpRmdir, fxpReaddir]) :
    Allows table options root world message := by
  simp only [List.mem_cons, List.not_mem_nil, or_false, not_or] at h
  obtain ⟨hmkdir, hsymlink, hrename, hrmdir, hreaddir⟩ := h
  exact ⟨fun heq ↦ absurd heq hmkdir, fun heq ↦ absurd heq hsymlink,
    fun heq ↦ absurd heq hrename, fun heq ↦ absurd heq hrmdir, fun heq ↦ absurd heq hreaddir⟩

/-- From a file system whose links under the root resolve inside, every call of a
conversation touches objects inside the root only, and every link under the root still
resolves inside afterwards. Assumes: each message is allowed in the state in which it is
served, and the path of the root leads to it whatever lies below. -/
theorem tryServe_confined (startup : Startup) (messages : List ClientMessage) (fs : FileSystem)
    (fds : List (ℤ × OpenFile)) (streams : List (ℕ × DirStream)) (faults : List Fault)
    (hroot : LeadsTo fs options.root root) (hdir : fs.tree.isDir root = true)
    (hlinks : LinksInside root fs.tree)
    (hallowed : Allowed (serveMessage table options) (Allows table options root) messages
      (World.begin fs fds streams faults)) :
    ∀ served, served <+: messages →
      let world := (tryServe table options startup served (World.begin fs fds streams faults)).2
      LinksInside root world.fs.tree ∧
        ∀ call touched, .called call touched ∈ world.trace → ∀ loc ∈ touched, root <+: loc := by
  intro served hserved world
  have hunder : startup.served served <+: messages := by
    unfold Startup.served
    split_ifs
    · exact hserved
    · exact List.nil_prefix
  have hguarded : Guarded options.root root (World.begin fs fds streams faults) world := by
    change Guarded _ _ _ (tryServe table options startup served _).2
    rw [tryServe_world]
    exact invariant_of_allowed (serveMessage_guarded table options _) hallowed
      (guarded_begin hroot ⟨hdir, hlinks⟩ fds streams faults) hunder
  refine ⟨hguarded.confined.links, fun call touched hcalled ↦ ?_⟩
  obtain ⟨events, htrace, hevents⟩ := hguarded.events
  have hmem : .called call touched ∈ events := by
    rw [htrace] at hcalled
    exact hcalled
  exact hevents _ hmem

end Conversation

/-- A client that makes a directory and opens a file. -/
def tidyClient : List ClientMessage :=
  [{ type := fxpMkdir, filename := some (ascii "d") },
    { type := fxpOpen, filename := some (ascii "f"), flags := fxfRead }]

theorem singleFile_no_links (loc : Loc) (target : LinkTarget) (attr : NodeAttr) :
    singleFile.tree.get loc ≠ some (.symlink target attr) := by
  intro h
  have hmem := AList.mem_lookup_iff.mp (Option.mem_def.mpr h)
  simp [singleFile] at hmem

theorem tryServe_confined_tidyClient :
    let world := (tryServe HandleTable.firstFree srvServer {} tidyClient
      (World.begin singleFile [] [] [])).2
    world.fs.tree.get [ascii "srv", ascii "d"] ≠ none ∧ LinksInside [ascii "srv"] world.fs.tree ∧
      ∀ call touched, .called call touched ∈ world.trace →
        ∀ loc ∈ touched, [ascii "srv"] <+: loc := by
  have hallowed : Allowed (serveMessage HandleTable.firstFree srvServer)
      (Allows HandleTable.firstFree srvServer [ascii "srv"]) tidyClient
      (World.begin singleFile [] [] []) := by
    have hmkdir : ∀ canon done, singleFile.mkdir canon 0o755 = .ok done →
        FillsInside [ascii "srv"] singleFile.tree done.fs.tree :=
      fun _ _ hdone ↦ fillsInside_mkdir singleFile_no_links hdone
    refine ⟨⟨fun _ _ canon done _ hdone ↦ hmkdir canon done hdone, fun h ↦ absurd h (by decide),
      fun h ↦ absurd h (by decide), fun h ↦ absurd h (by decide), fun h ↦ absurd h (by decide)⟩, ?_⟩
    exact ⟨allows_of_type _ _ (by decide), trivial⟩
  refine ⟨by decide +kernel, ?_⟩
  exact tryServe_confined HandleTable.firstFree srvServer {} tidyClient singleFile [] [] []
    (leadsTo_physical (by decide)) (by decide)
    (fun dir name target attr _ h ↦ absurd h (singleFile_no_links _ target attr)) hallowed
    tidyClient (List.prefix_refl _)

/-- A client that puts a link to a free name outside of the root in place and then creates
the file it opens through that link. -/
def escapingClient : List ClientMessage :=
  [{ type := fxpSymlink, filename := some (ascii "/new"), data := some (ascii "l") },
    { type := fxpOpen, filename := some (ascii "l"), flags := fxfWrite ||| fxfCreat }]

/-- `/new` is created by a server whose root is `/srv`, although no link under `/srv` led
outside. -/
theorem escapingClient_creates_outside :
    let world := (tryServe HandleTable.firstFree srvServer {} escapingClient
      (World.begin singleFile [] [] [])).2
    LeadsTo singleFile srvServer.root [ascii "srv"] ∧
      LinksInside [ascii "srv"] singleFile.tree ∧
      world.fs.tree.get [ascii "new"] ≠ none ∧
      ¬ ∀ call touched, .called call touched ∈ world.trace →
        ∀ loc ∈ touched, [ascii "srv"] <+: loc := by
  refine ⟨leadsTo_physical (by decide),
    fun dir name target attr _ h ↦ absurd h (singleFile_no_links _ target attr),
    by decide +kernel, fun hinside ↦ ?_⟩
  have hcreated := hinside (.openFile ⟨true, [ascii "srv", ascii "l"]⟩
    { access := .writeOnly, creat := true }) [[ascii "new"], []] (by decide +kernel)
  exact absurd (hcreated [ascii "new"] List.mem_cons_self) (by decide)

end LibSshpp.SftpServer
