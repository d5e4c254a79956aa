import LibSshpp.SftpServer.HandleRelease

/-!
The descriptors and streams of the session apart from the others of the process. What
holds of every file and stream when it is opened holds of all that the handle table leads
to, since the server works on and closes nothing but its own.
-/

set_option autoImplicit false
set_option relaxedAutoImplicit false

namespace LibSshpp.SftpServer

open Posix Sftp Program

/-- The resource of the entry is none of those that were there before. -/
def HandleEntry.IsOwn (before : World) (entry : HandleEntry) : Prop :=
  if entry.isDir then entry.dir ∉ before.streams.map Prod.fst
  else entry.fd ∉ before.fds.map Prod.fst

/-- The resources from before are still there, all others are as they should be, and the
handle table leads to none but these. -/
structure Owned (fileOk : OpenFile → Prop) (streamOk : DirStream → Prop) (before world : World) :
    Prop where
  keptFds : ∀ fd ∈ before.fds.map Prod.fst, fd ∈ world.fds.map Prod.fst
  keptStreams : ∀ address ∈ before.streams.map Prod.fst, address ∈ world.streams.map Prod.fst
  files : ∀ fd file, (fd, file) ∈ world.fds → fd ∈ before.fds.map Prod.fst ∨ fileOk file
  dirs : ∀ address stream, (address, stream) ∈ world.streams →
    address ∈ before.streams.map Prod.fst ∨ streamOk stream
  entries : ∀ slot entry, world.slots slot = some entry → entry.IsOwn before

section Owned

variable {fileOk : OpenFile → Prop} {streamOk : DirStream → Prop} {before world : World}

theorem owned_begin (fileOk : OpenFile → Prop) (streamOk : DirStream → Prop) (fs : FileSystem)
    (fds : List (ℤ × OpenFile)) (streams : List (ℕ × DirStream)) (faults : List Fault) :
    Owned fileOk streamOk (World.begin fs fds streams faults)
      (World.begin fs fds streams faults) where
  keptFds _ h := h
  keptStreams _ h := h
  files _ _ h := Or.inl (List.mem_map.mpr ⟨_, h, rfl⟩)
  dirs _ _ h := Or.inl (List.mem_map.mpr ⟨_, h, rfl⟩)
  entries _ _ h := nomatch h

theorem Owned.transfer (h : Owned fileOk streamOk before world) {after : World}
    (hfds : after.fds = world.fds) (hstreams : after.streams = world.streams)
    (hslots : after.slots = world.slots) : Owned fileOk streamOk before after := by
  refine ⟨?_, ?_, ?_, ?_, ?_⟩
  · rw [hfds]
    exact h.keptFds
  · rw [hstreams]
    exact h.keptStreams
  · rw [hfds]
    exact h.files
  · rw [hstreams]
    exact h.dirs
  · rw [hslots]
    exact h.entries

theorem mem_of_lookup {κ β : Type} [BEq κ] [LawfulBEq κ] {entries : List (κ × β)} {key : κ}
    {value : β} (h : entries.lookup key = some value) : (key, value) ∈ entries := by
  obtain ⟨upper, lower, hsplit, -⟩ := List.lookup_eq_some_iff.mp h
  rw [hsplit]
  exact List.mem_append_right _ List.mem_cons_self

theorem lookup_filter_ne {κ β : Type} [DecidableEq κ] {entries : List (κ × β)} {key other : κ}
    (h : other ≠ key) :
    (entries.filter (·.1 ≠ key)).lookup other = entries.lookup other := by
  induction entries with
  | nil => rfl
  | cons entry entries ih =>
    by_cases hkey : entry.1 = key
    · have hother : (other == entry.1) = false := by simpa [hkey] using h
      rw [List.filter_cons_of_neg (by simpa using hkey), ih, List.lookup_cons, hother]
    · rw [List.filter_cons_of_pos (by simpa using hkey), List.lookup_cons, List.lookup_cons, ih]

theorem Owned.file (h : Owned fileOk streamOk before world) {slot : ℕ} {entry : HandleEntry}
    (hentry : world.slots slot = some entry) (hfile : entry.isDir = false) {file : OpenFile}
    (hlookup : world.fds.lookup entry.fd = some file) : fileOk file := by
  have hown := h.entries slot entry hentry
  rw [HandleEntry.IsOwn, hfile] at hown
  exact (h.files entry.fd file (mem_of_lookup hlookup)).resolve_left hown

theorem Owned.stream (h : Owned fileOk streamOk before world) {slot : ℕ} {entry : HandleEntry}
    (hentry : world.slots slot = some entry) (hdir : entry.isDir = true) {stream : DirStream}
    (hlookup : world.streams.lookup entry.dir = some stream) : streamOk stream := by
  have hown := h.entries slot entry hentry
  rw [HandleEntry.IsOwn, hdir] at hown
  exact (h.dirs entry.dir stream (mem_of_lookup hlookup)).resolve_left hown

theorem newDescriptor_owned (h : Owned fileOk streamOk before world) (file : OpenFile)
    (hfile : fileOk file) (path : Path) :
    Owned fileOk streamOk before (newDescriptor file world).2 ∧
      ((Resource.fd (newDescriptor file world).1).entry path 0).IsOwn before := by
  refine ⟨⟨fun fd hfd ↦ List.mem_cons_of_mem _ (h.keptFds fd hfd), h.keptStreams, ?_, h.dirs,
    h.entries⟩, fun hmem ↦ newDescriptor_notMem file world (h.keptFds _ hmem)⟩
  intro fd other hmem
  rcases List.mem_cons.mp hmem with heq | hmem
  · rw [(Prod.mk.inj heq).2]
    exact Or.inr hfile
  · exact h.files fd other hmem

theorem newStream_owned (h : Owned fileOk streamOk before world) (stream : DirStream)
    (hstream : streamOk stream) (path : Path) :
    Owned fileOk streamOk before (newStream stream world).2 ∧
      ((Resource.stream (newStream stream world).1).entry path 0).IsOwn before := by
  refine ⟨⟨h.keptFds, fun address haddress ↦ List.mem_cons_of_mem _ (h.keptStreams _ haddress),
    h.files, ?_, h.entries⟩, fun hmem ↦ ?_⟩
  · intro address other hmem
    rcases List.mem_cons.mp hmem with heq | hmem
    · rw [(Prod.mk.inj heq).2]
      exact Or.inr hstream
    · exact h.dirs address other hmem
  · exact newStream_notMem stream world (List.mem_cons_of_mem 0 (h.keptStreams _ hmem))

theorem isOwn_entry {resource : Resource} {path : Path}
    (h : (resource.entry path 0).IsOwn before) (address : ℕ) :
    (resource.entry path address).IsOwn before := by
  cases resource <;> exact h

theorem closeHandle_owned (entry : HandleEntry) :
    Triple (fun world ↦ Owned fileOk streamOk before world ∧ entry.IsOwn before)
      (closeHandle entry) fun _ ↦ Owned fileOk streamOk before := by
  refine Triple.of_fact fun hown ↦ ?_
  rw [HandleEntry.IsOwn] at hown
  unfold closeHandle
  split_ifs at hown ⊢
  · intro world h
    refine ⟨h.keptFds, ?_, h.files, ?_, h.entries⟩
    · intro address haddress
      refine mem_keys_filter ?_ (h.keptStreams address haddress)
      exact fun heq ↦ hown (heq ▸ haddress)
    · exact fun address stream hmem ↦ h.dirs address stream (List.mem_of_mem_filter hmem)
  · exact Keeps.pure _
  · intro world h
    refine ⟨?_, h.keptStreams, ?_, h.dirs, h.entries⟩
    · intro fd hfd
      refine mem_keys_filter ?_ (h.keptFds fd hfd)
      exact fun heq ↦ hown (heq ▸ hfd)
    · exact fun fd file hmem ↦ h.files fd file (List.mem_of_mem_filter hmem)
  · exact Keeps.pure _

/-- An own entry is stored in a slot. -/
theorem Owned.stored (h : Owned fileOk streamOk before world) {entry : HandleEntry}
    (hown : entry.IsOwn before) (slot : ℕ) :
    Owned fileOk streamOk before
      { world.dropFault with slots := Function.update world.slots slot (some entry) } := by
  refine ⟨h.keptFds, h.keptStreams, h.files, h.dirs, ?_⟩
  intro place other hother
  by_cases heq : place = slot
  · simp only [heq, Function.update_self] at hother
    rw [← Option.some.inj hother]
    exact hown
  · simp only [Function.update_of_ne heq] at hother
    exact h.entries place other hother

theorem remove_owned (table : HandleTable) (entry : HandleEntry) :
    Keeps (Owned fileOk streamOk before) (table.sftpHandleRemove entry) := by
  intro world h
  unfold HandleTable.sftpHandleRemove
  split
  · exact h
  · next slot _ =>
    refine ⟨h.keptFds, h.keptStreams, h.files, h.dirs, ?_⟩
    intro place other hother
    by_cases heq : place = slot
    · simp only [heq, Function.update_self] at hother
      exact nomatch hother
    · simp only [Function.update_of_ne heq] at hother
      exact h.entries place other hother

/-- `sftp_handle_remove` and `close_handle` on a held entry. -/
theorem release_owned {table : HandleTable} {message : ClientMessage} {start : World}
    {entry : HandleEntry} (hheld : Held table message start entry) :
    Triple (At start (Owned fileOk streamOk before))
      (do table.sftpHandleRemove entry; closeHandle entry)
      fun _ ↦ Owned fileOk streamOk before := by
  obtain ⟨slot, hslot⟩ := hheld.slot
  have hremove : Triple (At start (Owned fileOk streamOk before)) (table.sftpHandleRemove entry)
      fun _ world ↦ Owned fileOk streamOk before world ∧ entry.IsOwn before :=
    fun world h ↦ ⟨remove_owned table entry world h.1,
      h.1.entries slot entry (by rw [h.2.slots, hslot])⟩
  exact Triple.bind hremove fun _ ↦ closeHandle_owned entry

/-- A stream with its next name read. -/
theorem Owned.advance (h : Owned fileOk streamOk before world) {address : ℕ} {stream : DirStream}
    (hstream : (address, stream) ∈ world.streams)
    (hnext : streamOk stream → streamOk { stream with pending := stream.pending.tail })
    {after : World} (hfds : after.fds = world.fds) (hslots : after.slots = world.slots)
    (hstreams : after.streams = (address, { stream with pending := stream.pending.tail }) ::
      world.streams.filter (·.1 ≠ address)) : Owned fileOk streamOk before after := by
  refine ⟨hfds ▸ h.keptFds, ?_, hfds ▸ h.files, ?_, hslots ▸ h.entries⟩
  · intro other hother
    rw [hstreams]
    by_cases heq : other = address
    · rw [heq]
      exact List.mem_cons_self
    · exact List.mem_cons_of_mem _ (mem_keys_filter heq (h.keptStreams other hother))
  · intro other found hmem
    rw [hstreams] at hmem
    rcases List.mem_cons.mp hmem with heq | hmem
    · obtain ⟨rfl, rfl⟩ := Prod.mk.inj heq
      exact (h.dirs _ stream hstream).imp id hnext
    · exact h.dirs other found (List.mem_of_mem_filter hmem)

end Owned

end LibSshpp.SftpServer
