import LibSshpp.Posix.ConfinedCalls
import LibSshpp.SftpServer.DirectoryRequests
import LibSshpp.SftpServer.Replies
import LibSshpp.SftpServer.ServedSessions

/-!
`Sftp::try_list` with this server at the other end. The client asks for one batch of names after
the other until the end is reported. What it lists is in the directory, in the directory's order
and each name once; if nothing fails it is the whole directory. A READDIR that reads entries and
can report none is not answered, and then the client waits without end.
-/

set_option autoImplicit false
set_option relaxedAutoImplicit false

namespace LibSshpp.SftpServer

open Posix Sftp Program
open ListingSession (isDotEntry)

/-! ### The client -/

/-- The request of `sftp_opendir`. -/
def opendirRequest (path : RemotePath) : ClientMessage where
  type := fxpOpendir
  filename := some (cString path)

/-- An entry of a list of names as the client receives it. -/
def receivedEntry (transfer : NativeAttributes → NativeAttributes) (name longname : Bytes)
    (attr : NativeAttributes) : NativeAttributes :=
  { transfer attr with name := some name, longname := some longname }

/-- The entries of a list of names that is sent. Whether one is sent is up to `packetsSent`. -/
def namesSent (transfer : NativeAttributes → NativeAttributes) :
    List Reply → Option (List NativeAttributes)
  | [.names] => some []
  | .namesAdd name longname attr :: replies =>
    (namesSent transfer replies).map (receivedEntry transfer name longname attr :: ·)
  | _ => none

/-- A `Directory` of a session, with the state of the server. `received` holds what is left of the
last list of names, and `status` what `sftp_get_error` says. -/
structure ServedDirectory where
  native : Bool := true
  handle : Bytes
  received : Option (List NativeAttributes) := none
  eof : Bool := false
  status : ℤ := 0
  lastError : ErrorInfo := { code := .ssh .ok }
  world : World

namespace ServedDirectory

variable (table : HandleTable) (options : Options)
  (transfer : NativeAttributes → NativeAttributes)

def readdirRequest (directory : ServedDirectory) : ClientMessage where
  type := fxpReaddir
  handle := directory.handle

/-- The answer to a READDIR has come in. -/
def take (directory : ServedDirectory) (replies : List Reply) : ServedDirectory :=
  match replies with
  | [.status code _] =>
    { directory with eof := directory.eof || code = .eof, status := code.number }
  | replies =>
    (namesSent transfer replies).elim { directory with status := -1 }
      fun entries ↦ { directory with received := some entries }

/-- The READDIR that `sftp_readdir` sends when it has nothing to hand out from. It has no result
if no packet comes: the client waits. -/
def fetch : OptionT (StateM ServedDirectory) Unit := fun directory ↦
  let replies := answers table options directory.readdirRequest directory.world
  let asked : ServedDirectory := { directory with
    world := (serveMessage table options directory.readdirRequest directory.world).2 }
  if packetsSent false replies = 0 then (none, asked) else (some (), asked.take transfer replies)

/-- The next entry of the list of names that was received. -/
def handOut : OptionT (StateM ServedDirectory) (Option NativeAttributes) := fun directory ↦
  match directory.received with
  | some (entry :: rest) =>
    (some (some entry), { directory with received := if rest = [] then none else some rest })
  | some [] | none => (some none, directory)

/-- `sftp_readdir`. -/
def sftpReaddir : OptionT (StateM ServedDirectory) (Option NativeAttributes) := fun directory ↦
  if directory.received.isNone then (fetch table options transfer >>= fun _ ↦ handOut) directory
  else handOut directory

/-- `Directory::next`. -/
def next : OptionT (StateM ServedDirectory) (Option Attributes) := fun directory ↦
  if directory.native = false then (some none, directory)
  else match sftpReaddir table options transfer directory with
    | (none, after) => (none, after)
    | (some (some raw), after) => (some (some (attributesFromNative raw)), after)
    | (some none, after) =>
      (some none, if after.eof then after
        else { after with lastError := makeSftpErrorInfo after.status {} "sftp_readdir" })

/-- The loop of `try_list`. Each round but the last one takes an entry of the directory. -/
def listLoop : ℕ → List Attributes → OptionT (StateM ServedDirectory) (List Attributes)
  | 0, result => pure result
  | rounds + 1, result => do
    match ← next table options transfer with
    | none => pure result
    | some entry => listLoop rounds (if isDotEntry entry then result else result ++ [entry])

/-- The names that the server has still to list. -/
def pending (directory : ServedDirectory) : ℕ :=
  match (table.decode directory.handle).bind directory.world.slots with
  | none => 0
  | some entry => (pendingNames entry.dir directory.world).1

end ServedDirectory

namespace ServedSession

variable (table : HandleTable) (options : Options)

/-- `Sftp::try_open_directory`. -/
def tryOpenDirectory (session : ServedSession) (path : RemotePath) :
    Result ServedDirectory × ServedSession :=
  if session.isOpen = false then
    (.error { code := .ssh .invalidHandle, operation := "Sftp::try_open_directory" }, session)
  else
    let message := opendirRequest path
    let after := session.request table options message
    match answers table options message session.world with
    | [.handle handle] => (.ok { handle, world := after.world }, after)
    | [.status code _] =>
      (.error (makeSftpErrorInfo code.number session.lastError "sftp_opendir"), after)
    | _ => (.error (makeSftpErrorInfo (-1) session.lastError "sftp_opendir"), after)

/-- The destructor of `Directory`: `sftp_closedir`. -/
def closeDirectory (session : ServedSession) (directory : ServedDirectory) : ServedSession :=
  { session with world := directory.world }.request table options
    { type := fxpClose, handle := directory.handle }

/-- `Sftp::try_list`. It has no result where the client waits for an answer that is not sent, and
then the destructor of the directory does not run. -/
def tryList (transfer : NativeAttributes → NativeAttributes) (session : ServedSession)
    (path : RemotePath) : Option (Result (List Attributes)) × ServedSession :=
  match session.tryOpenDirectory table options path with
  | (.error info, session) => (some (.error info), session)
  | (.ok directory, session) =>
    match ServedDirectory.listLoop table options transfer (directory.pending table + 1) []
        directory with
    | (none, directory) => (none, { session with world := directory.world })
    | (some result, directory) =>
      let session := session.closeDirectory table options directory
      (some (if directory.lastError.isSet then .error directory.lastError else .ok result),
        session)

end ServedSession

/-! ### What comes with a name -/

/-- What the client makes of an entry of the server. -/
def listedEntry (transfer : NativeAttributes → NativeAttributes) (item : Name × Stat) :
    Attributes :=
  attributesFromNative (receivedEntry transfer item.1 (formatLongname item.1 item.2)
    (fillAttributes item.2))

/-- `lstat` says so of the name. -/
def Genuine (fs : FileSystem) (path : Path) (item : Name × Stat) : Prop :=
  ∃ done, fs.lstat (path.join (Path.ofBytes item.1)) = .ok done ∧ done.value = item.2

theorem namesSent_additions (transfer : NativeAttributes → NativeAttributes)
    (found : List (Name × Stat)) :
    namesSent transfer (found.map addition ++ [.names]) =
      some (found.map fun item ↦ receivedEntry transfer item.1 (formatLongname item.1 item.2)
        (fillAttributes item.2)) := by
  induction found with
  | nil => rfl
  | cons item found ih =>
    change (namesSent transfer (found.map addition ++ [.names])).map _ = _
    rw [ih]
    rfl

variable {table : HandleTable} {options : Options}
  {transfer : NativeAttributes → NativeAttributes} {start world : World} {slot : ℕ}
  {entry : HandleEntry} {loc : Loc} {found : List (Name × Stat)} {left : List Name}
  {directory : ServedDirectory}

theorem genuine_of_lookUp {path : Path} {place : ℕ} {name : Name} {item : Name × Stat}
    (h : lookUp world path place name = some item) : Genuine world.fs path item := by
  have hname := lookUp_name h
  unfold lookUp at h
  split_ifs at h
  cases hlstat : world.fs.lstat (path.join (Path.ofBytes name)) with
  | error error =>
    rw [hlstat] at h
    cases h
  | ok done =>
    rw [hlstat] at h
    obtain rfl := Option.some.inj h
    exact ⟨done, hlstat, rfl⟩

/-- Without faults a name is found if `lstat` knows it. -/
theorem lookUp_of_quiet (hfaults : world.faults = []) {path : Path} {name : Name}
    (h : ∃ st, Genuine world.fs path (name, st)) (place : ℕ) :
    (lookUp world path place name).isSome = true := by
  obtain ⟨st, done, hlstat, -⟩ := h
  unfold lookUp World.faultAt
  rw [hfaults, List.drop_nil, hlstat]
  rfl

theorem readFails_of_quiet (hfaults : world.faults = []) (place : ℕ) :
    readFails world place = false := by
  unfold readFails World.faultAt
  rw [hfaults, List.drop_nil]
  rfl

/-! ### One entry -/

theorem take_additions (directory : ServedDirectory) (found : List (Name × Stat)) :
    directory.take transfer (found.map addition ++ [.names]) = { directory with
      received := some (found.map fun item ↦ receivedEntry transfer item.1
        (formatLongname item.1 item.2) (fillAttributes item.2)) } := by
  have hsent := namesSent_additions transfer found
  cases found with
  | nil => rfl
  | cons item found =>
    change (namesSent transfer ((item :: found).map addition ++ [.names])).elim _ _ = _
    rw [hsent]
    rfl

theorem packetsSent_additions (found : List (Name × Stat)) :
    packetsSent false (found.map addition ++ [.names]) = if found = [] then 0 else 1 := by
  have hadds : ∀ reply ∈ found.map addition, reply.collects = true := by
    intro reply hreply
    obtain ⟨item, -, rfl⟩ := List.mem_map.mp hreply
    rfl
  rw [packetsSent_append_of_collects hadds, packetsSent_single]
  cases found <;> rfl

/-- No call fails, and `lstat` knows the names. -/
def Unhindered (start : World) (path : Path) (names : List Name) : Prop :=
  start.faults = [] ∧ ∀ name ∈ names, ∃ st, Genuine start.fs path (name, st)

/-- The client has asked for entries of its directory, and the server has found some and can report
none: there is no answer. Nothing but the handle and the stream of the directory has changed. -/
structure Waiting (table : HandleTable) (options : Options) (start : World) (slot : ℕ)
    (entry : HandleEntry) (world : World) : Prop where
  browsed : Browsed table start slot entry world
  unreported : ∃ before message, Browsed table start slot entry before ∧
    message.type = fxpReaddir ∧ message.handle = table.encode slot ∧
    ¬ ReadIsReported table before message ∧
    world = (serveMessage table options message before).2

/-- The client's directory is the one that was opened. -/
structure Attended (table : HandleTable) (start : World) (slot : ℕ) (entry : HandleEntry)
    (directory : ServedDirectory) : Prop where
  native : directory.native = true
  handle : directory.handle = table.encode slot
  browsed : Browsed table start slot entry directory.world
  ledger : Ledger table none directory.world
  backed : directory.world.Backed

/-- The client has the entries `found` still to hand out, and the server the names `left` still to
list. -/
structure Awaits (table : HandleTable) (transfer : NativeAttributes → NativeAttributes)
    (start : World) (slot : ℕ) (entry : HandleEntry) (loc : Loc) (directory : ServedDirectory)
    (found : List (Name × Stat)) (left : List Name) : Prop
    extends Attended table start slot entry directory where
  stream : directory.world.streams.lookup entry.dir = some ⟨loc, left⟩
  received : directory.received = if found = [] then none
    else some (found.map fun item ↦ receivedEntry transfer item.1 (formatLongname item.1 item.2)
      (fillAttributes item.2))
  genuine : ∀ item ∈ found, Genuine start.fs entry.path item

theorem quiet_of_browsed (h : Browsed table start slot entry world) (hquiet : start.faults = []) :
    world.faults = [] :=
  List.subset_nil.mp fun fault hfault ↦ hquiet ▸ h.faults fault hfault

/-- The next READDIR is not answered, or finds the end, or brings a list of names. -/
theorem fetch_cases (options : Options)
    (h : Awaits table transfer start slot entry loc directory [] left) :
    ∃ after, Attended table start slot entry after ∧ after.lastError = directory.lastError ∧
      ((ServedDirectory.fetch table options transfer directory = (none, after) ∧
          Waiting table options start slot entry after.world ∧
          ¬ Unhindered start entry.path left) ∨
        (ServedDirectory.fetch table options transfer directory = (some (), after) ∧
          after.received = none ∧ after.eof = true ∧
          (Unhindered start entry.path left → left = [])) ∨
        ∃ item more rest, ServedDirectory.fetch table options transfer directory = (some (),
            { after with received := some ((item :: more).map fun item ↦ receivedEntry transfer
              item.1 (formatLongname item.1 item.2) (fillAttributes item.2)) }) ∧
          after.world.streams.lookup entry.dir = some ⟨loc, rest⟩ ∧
          (∀ other ∈ item :: more, Genuine start.fs entry.path other) ∧
          ((item :: more).map Prod.fst ++ rest).Sublist left ∧
          (Unhindered start entry.path left → (item :: more).map Prod.fst ++ rest = left)) := by
  let after := (serveMessage table options directory.readdirRequest directory.world).2
  have hhandle : directory.readdirRequest.handle = table.encode slot := h.handle
  have hheld : Held table directory.readdirRequest directory.world entry := by
    rw [Held, hhandle]
    exact h.browsed.held
  obtain ⟨hanswers, -, hstream⟩ :=
    answers_readdir options rfl hheld h.browsed.isDir h.stream
  have hbrowsed := readdir_browsed options rfl hhandle h.browsed
  have hledger := serveMessage_ledger table options directory.readdirRequest _ h.ledger
  have hbacked := serveMessage_backed table options directory.readdirRequest _ h.backed
  have hattended : Attended table start slot entry { directory with world := after } :=
    ⟨h.native, h.handle, hbrowsed, hledger, hbacked⟩
  by_cases hend : readFails directory.world 0 = true ∨ left = []
  · rw [listing_of_end hend] at hanswers
    have hfetch : ServedDirectory.fetch table options transfer directory = (some (),
        { directory with world := after, eof := directory.eof || true, status := 1 }) := by
      unfold ServedDirectory.fetch
      rw [hanswers]
      rfl
    refine ⟨{ directory with world := after, eof := directory.eof || true, status := 1 },
      ⟨hattended.native, hattended.handle, hattended.browsed, hattended.ledger, hattended.backed⟩,
      rfl, .inr (.inl ⟨hfetch, h.received, Bool.or_true _, fun hfree ↦ ?_⟩)⟩
    exact hend.resolve_left (by
      rw [readFails_of_quiet (quiet_of_browsed h.browsed hfree.1) 0]
      exact Bool.false_ne_true)
  have hread : readFails directory.world 0 = false := by
    simpa using fun hfails ↦ hend (.inl hfails)
  have hnames : left ≠ [] := fun hnil ↦ hend (.inr hnil)
  rw [listing_of_read hread hnames] at hanswers
  have hpackets := packetsSent_additions (nextBatch directory.world entry.path left).1
  rw [← hanswers] at hpackets
  -- with nothing in the way the batch is what `readdir` returns next, and not empty
  have hwhole : Unhindered start entry.path left →
      (nextBatch directory.world entry.path left).1.map Prod.fst ++
          (nextBatch directory.world entry.path left).2 = left ∧
        (nextBatch directory.world entry.path left).1 ≠ [] := by
    intro hfree
    have hfaults := quiet_of_browsed h.browsed hfree.1
    have hsteady : Steady (lookUp directory.world entry.path) (readFails directory.world)
        (fun _ ↦ true) 64 0 left := by
      intro distance name hname _
      refine ⟨readFails_of_quiet hfaults _, lookUp_of_quiet hfaults ?_ _⟩
      rw [h.browsed.fs]
      exact hfree.2 name (List.mem_of_getElem? hname)
    obtain ⟨hwhole, hfull⟩ := batch_append (fun _ _ _ ↦ lookUp_name) hsteady
    rw [List.filter_true, List.filter_true] at hwhole
    refine ⟨hwhole, fun hnone ↦ ?_⟩
    rw [nextBatch] at hnone
    rcases hfull with hfull | hrest
    · rw [hnone] at hfull
      cases hfull
    · rw [hnone, hrest] at hwhole
      exact hnames hwhole.symm
  cases hbatch : (nextBatch directory.world entry.path left).1 with
  | nil =>
    rw [if_pos hbatch] at hpackets
    have hsilent : ¬ ReadIsReported table directory.world directory.readdirRequest := by
      rw [← packetsSent_eq_one_iff table options, hpackets]
      exact Nat.zero_ne_one
    exact ⟨_, hattended, rfl, .inl ⟨if_pos hpackets,
      ⟨hbrowsed, directory.world, directory.readdirRequest, h.browsed, rfl, hhandle, hsilent, rfl⟩,
      fun hfree ↦ (hwhole hfree).2 hbatch⟩⟩
  | cons item more =>
    have hpacket : packetsSent false
        (answers table options directory.readdirRequest directory.world) ≠ 0 := by
      rw [hpackets, if_neg (by rw [hbatch]; exact List.cons_ne_nil item more)]
      exact Nat.one_ne_zero
    have hfetch : ServedDirectory.fetch table options transfer directory = (some (),
        { directory with
          world := after
          received := some ((item :: more).map fun item ↦ receivedEntry transfer item.1
            (formatLongname item.1 item.2) (fillAttributes item.2)) }) := by
      refine (if_neg hpacket).trans ?_
      rw [hanswers, take_additions, hbatch]
    refine ⟨_, hattended, rfl, .inr (.inr ⟨item, more, _, hfetch, hstream,
      fun other hother ↦ ?_, ?_, fun hfree ↦ hbatch ▸ (hwhole hfree).1⟩)⟩
    · obtain ⟨place, name, hlook⟩ := batch_found (hbatch.symm ▸ hother)
      rw [← h.browsed.fs]
      exact genuine_of_lookUp hlook
    · rw [← hbatch]
      exact batch_sublist (fun _ _ _ ↦ lookUp_name) 64 0 left

section Next

variable {after : ServedDirectory} (hnative : directory.native = true)

include hnative

theorem next_eq : ServedDirectory.next table options transfer directory =
    match ServedDirectory.sftpReaddir table options transfer directory with
    | (none, after) => (none, after)
    | (some (some raw), after) => (some (some (attributesFromNative raw)), after)
    | (some none, after) =>
      (some none, if after.eof then after
        else { after with lastError := makeSftpErrorInfo after.status {} "sftp_readdir" }) :=
  if_neg (by rw [hnative]; exact Bool.noConfusion)

theorem next_of_entry {raw : NativeAttributes}
    (h : ServedDirectory.sftpReaddir table options transfer directory = (some (some raw), after)) :
    ServedDirectory.next table options transfer directory =
      (some (some (attributesFromNative raw)), after) := by
  rw [next_eq hnative, h]

theorem next_of_end (heof : after.eof = true)
    (h : ServedDirectory.sftpReaddir table options transfer directory = (some none, after)) :
    ServedDirectory.next table options transfer directory = (some none, after) := by
  rw [next_eq hnative, h]
  exact congrArg (Prod.mk _) (if_pos heof)

theorem next_of_waiting
    (h : ServedDirectory.sftpReaddir table options transfer directory = (none, after)) :
    ServedDirectory.next table options transfer directory = (none, after) := by
  rw [next_eq hnative, h]

end Next

theorem sftpReaddir_of_received {entries : List NativeAttributes}
    (h : directory.received = some entries) :
    ServedDirectory.sftpReaddir table options transfer directory =
      ServedDirectory.handOut directory :=
  if_neg (by rw [h]; exact Bool.noConfusion)

theorem sftpReaddir_of_none (h : directory.received = none) :
    ServedDirectory.sftpReaddir table options transfer directory =
      (ServedDirectory.fetch table options transfer >>= fun _ ↦ ServedDirectory.handOut)
        directory :=
  if_pos (by rw [h]; rfl)

/-- The first entry that was received is handed out. -/
theorem Awaits.handOut {item : Name × Stat}
    (h : Awaits table transfer start slot entry loc directory (item :: found) left) :
    ∃ after, ServedDirectory.handOut directory = (some (some (receivedEntry transfer item.1
        (formatLongname item.1 item.2) (fillAttributes item.2))), after) ∧
      Awaits table transfer start slot entry loc after found left ∧
      after.lastError = directory.lastError := by
  have hreceived := h.received
  rw [if_neg (List.cons_ne_nil item found)] at hreceived
  let rest := found.map fun item ↦ receivedEntry transfer item.1 (formatLongname item.1 item.2)
    (fillAttributes item.2)
  refine ⟨{ directory with received := if rest = [] then none else some rest }, ?_,
    ⟨⟨h.native, h.handle, h.browsed, h.ledger, h.backed⟩, h.stream, ?_,
      fun other hother ↦ h.genuine other (List.mem_cons_of_mem item hother)⟩, rfl⟩
  · unfold ServedDirectory.handOut
    rw [hreceived]
    rfl
  · have hempty : rest = [] ↔ found = [] := List.map_eq_nil_iff
    simp only [hempty]
    rfl

/-- The next entry is one that was received, or one of the next list of names; or the client is told
that there is none, or not answered. -/
theorem next_cases (options : Options)
    (h : Awaits table transfer start slot entry loc directory found left) :
    ∃ after, Attended table start slot entry after ∧ after.lastError = directory.lastError ∧
      ((ServedDirectory.next table options transfer directory = (none, after) ∧
          Waiting table options start slot entry after.world ∧
          ¬ Unhindered start entry.path (found.map Prod.fst ++ left)) ∨
        (ServedDirectory.next table options transfer directory = (some none, after) ∧
          (Unhindered start entry.path (found.map Prod.fst ++ left) → found = [] ∧ left = [])) ∨
        ∃ item more rest, ServedDirectory.next table options transfer directory =
            (some (some (listedEntry transfer item)), after) ∧
          Awaits table transfer start slot entry loc after more rest ∧
          Genuine start.fs entry.path item ∧
          ((item :: more).map Prod.fst ++ rest).Sublist (found.map Prod.fst ++ left) ∧
          (Unhindered start entry.path (found.map Prod.fst ++ left) →
            (item :: more).map Prod.fst ++ rest = found.map Prod.fst ++ left)) := by
  have hreceived := h.received
  cases found with
  | cons item found =>
    obtain ⟨after, hout, hafter, herror⟩ := h.handOut
    rw [if_neg (List.cons_ne_nil item found)] at hreceived
    exact ⟨after, hafter.toAttended, herror, .inr (.inr ⟨item, found, left,
      next_of_entry h.native ((sftpReaddir_of_received hreceived).trans hout), hafter,
      h.genuine item List.mem_cons_self, List.Sublist.refl _, fun _ ↦ rfl⟩)⟩
  | nil =>
    have hread : ServedDirectory.sftpReaddir table options transfer directory = _ :=
      sftpReaddir_of_none hreceived
    obtain ⟨after, hattended, herror, ⟨hfetch, hwaiting, hhindered⟩ |
      ⟨hfetch, hnone, heof, hleft⟩ | ⟨item, more, rest, hfetch, hstream, hgenuine, hsublist,
        hwhole⟩⟩ := fetch_cases options h
    · rw [bind_of_none hfetch] at hread
      exact ⟨after, hattended, herror,
        .inl ⟨next_of_waiting h.native hread, hwaiting, hhindered⟩⟩
    · rw [bind_of_some hfetch] at hread
      have hout : ServedDirectory.handOut after = (some none, after) := by
        unfold ServedDirectory.handOut
        rw [hnone]
      exact ⟨after, hattended, herror, .inr (.inl
        ⟨next_of_end h.native heof (hread.trans hout), fun hfree ↦ ⟨rfl, hleft hfree⟩⟩)⟩
    · rw [bind_of_some hfetch] at hread
      have hawaits : Awaits table transfer start slot entry loc { after with
          received := some ((item :: more).map fun item ↦ receivedEntry transfer item.1
            (formatLongname item.1 item.2) (fillAttributes item.2)) } (item :: more) rest :=
        ⟨⟨hattended.native, hattended.handle, hattended.browsed, hattended.ledger,
          hattended.backed⟩, hstream, (if_neg (List.cons_ne_nil item more)).symm, hgenuine⟩
      obtain ⟨later, hout, hlater, hsame⟩ := hawaits.handOut
      exact ⟨later, hlater.toAttended, hsame.trans herror, .inr (.inr ⟨item, more, rest,
        next_of_entry h.native (hread.trans hout), hlater, hgenuine item List.mem_cons_self,
        hsublist, hwhole⟩)⟩

/-! ### The whole directory -/

/-- The loop ends when the client is told that there is no further entry, or waits. -/
theorem listLoop_lists (options : Options) (rounds : ℕ) :
    ∀ {directory : ServedDirectory} {found : List (Name × Stat)} {left : List Name}
      (result : List Attributes),
      Awaits table transfer start slot entry loc directory found left →
      found.length + left.length < rounds →
      ∃ after, Attended table start slot entry after ∧ after.lastError = directory.lastError ∧
        ((ServedDirectory.listLoop table options transfer rounds result directory =
              (none, after) ∧
            Waiting table options start slot entry after.world ∧
            ¬ Unhindered start entry.path (found.map Prod.fst ++ left)) ∨
          ∃ items : List (Name × Stat),
            ServedDirectory.listLoop table options transfer rounds result directory =
              (some (result ++
                (items.map (listedEntry transfer)).filter fun entry ↦ !isDotEntry entry), after) ∧
            (∀ item ∈ items, Genuine start.fs entry.path item) ∧
            (items.map Prod.fst).Sublist (found.map Prod.fst ++ left) ∧
            (Unhindered start entry.path (found.map Prod.fst ++ left) →
              items.map Prod.fst = found.map Prod.fst ++ left)) := by
  induction rounds with
  | zero => exact fun _ _ hrounds ↦ absurd hrounds (Nat.not_lt_zero _)
  | succ rounds ih =>
    intro directory found left result h hrounds
    obtain ⟨after, hattended, herror, ⟨hnext, hwaiting, hhindered⟩ | ⟨hnext, hfree⟩ |
      ⟨item, more, rest, hnext, hawaits, hgenuine, hsublist, hsame⟩⟩ := next_cases options h
    · refine ⟨after, hattended, herror, .inl ⟨?_, hwaiting, hhindered⟩⟩
      rw [ServedDirectory.listLoop, bind_of_none hnext]
    · refine ⟨after, hattended, herror, .inr ⟨[], ?_, fun _ hitem ↦ absurd hitem List.not_mem_nil,
        List.nil_sublist _, fun hunhindered ↦ ?_⟩⟩
      · rw [ServedDirectory.listLoop, bind_of_some hnext, List.map_nil, List.filter_nil,
          List.append_nil]
        rfl
      · obtain ⟨rfl, rfl⟩ := hfree hunhindered
        rfl
    have hshorter : more.length + rest.length < rounds := by
      have hlength := hsublist.length_le
      simp only [List.length_append, List.length_map, List.length_cons] at hlength
      omega
    have hloop : ServedDirectory.listLoop table options transfer (rounds + 1) result directory =
        ServedDirectory.listLoop table options transfer rounds
          (if isDotEntry (listedEntry transfer item) then result
            else result ++ [listedEntry transfer item]) after := by
      rw [ServedDirectory.listLoop, bind_of_some hnext]
    have hlater : Unhindered start entry.path (found.map Prod.fst ++ left) →
        Unhindered start entry.path (more.map Prod.fst ++ rest) := fun hfree ↦
      ⟨hfree.1, fun name hname ↦ hfree.2 name (hsublist.subset (List.mem_cons_of_mem _ hname))⟩
    obtain ⟨last, hlast, hlastError, ⟨hrun, hwaiting, hhindered⟩ |
      ⟨items, hrun, hgenuines, hrest, hwhole⟩⟩ := ih
        (if isDotEntry (listedEntry transfer item) then result
          else result ++ [listedEntry transfer item]) hawaits hshorter
    · exact ⟨last, hlast, hlastError.trans herror,
        .inl ⟨hloop.trans hrun, hwaiting, fun hfree ↦ hhindered (hlater hfree)⟩⟩
    · refine ⟨last, hlast, hlastError.trans herror, .inr ⟨item :: items,
        hloop.trans (hrun.trans (Prod.ext ?_ rfl)), fun other hother ↦ ?_,
        (hrest.cons_cons item.1).trans hsublist, fun hfree ↦ ?_⟩⟩
      · by_cases hdot : isDotEntry (listedEntry transfer item) = true
        · simp [hdot]
        · simp [hdot]
      · rcases List.mem_cons.mp hother with rfl | hother
        · exact hgenuine
        · exact hgenuines other hother
      · rw [← hsame hfree, List.map_cons, hwhole (hlater hfree)]
        rfl

/-! ### The names of a directory -/

section Names

variable {fs : FileSystem} {name : Name}

theorem isListed_of_mem {tree : FileTree} (h : name ∈ dot :: dotdot :: tree.children loc) :
    IsListed name := by
  rcases List.mem_cons.mp h with rfl | h
  · exact .inl rfl
  rcases List.mem_cons.mp h with rfl | h
  · exact .inr (.inl rfl)
  · exact .inr (.inr (FileTree.properName_of_mem (FileTree.mem_children_iff.mp h) (by simp)))

theorem join_listed (hisDir : fs.tree.isDir loc = true) (hname : IsListed name) :
    (⟨true, loc⟩ : Path).join (Path.ofBytes name) = ⟨true, loc ++ [name]⟩ := by
  have hentry : Path.entry ⟨true, loc⟩ = ⟨true, loc⟩ := by
    refine if_neg fun hlast ↦ ?_
    have hproper := FileTree.properName_of_mem (FileTree.get_ne_none_of_isDir hisDir)
      (List.mem_of_getLast? hlast)
    exact hproper.1 rfl
  rw [hname.ofBytes, Path.join, if_neg Bool.false_ne_true, if_neg (List.cons_ne_nil name []),
    hentry]

/-- `lstat` knows every name that a directory lists. -/
theorem genuine_listed (hisDir : fs.tree.isDir loc = true)
    (h : name ∈ dot :: dotdot :: fs.tree.children loc) :
    ∃ st, Genuine fs ⟨true, loc⟩ (name, st) := by
  have hstart : fs.tree.isDir ([] ++ loc) = true := hisDir
  have hfound : ∃ other, fs.resolve false ⟨true, loc ++ [name]⟩ = .found other := by
    rw [FileSystem.resolve_absolute, walk_physical loc hstart, List.nil_append]
    rcases List.mem_cons.mp h with rfl | h
    · exact ⟨loc, by rw [walk_idle (.inr rfl), walk_nil]⟩
    rcases List.mem_cons.mp h with rfl | h
    · exact ⟨loc.dropLast, by rw [walk_dotdot, walk_nil]⟩
    · have hexists := FileTree.mem_children_iff.mp h
      have hproper : ProperName name := FileTree.properName_of_mem hexists (by simp)
      exact ⟨loc ++ [name], by rw [walk_lastName (isEntryName_of_proper hproper), if_neg hexists]⟩
  obtain ⟨other, hother⟩ := hfound
  have hexists := fs.resolve_sound false ⟨true, loc ++ [name]⟩
  rw [hother] at hexists
  obtain ⟨node, hnode⟩ := Option.ne_none_iff_exists'.mp hexists
  refine ⟨fs.statNode node, ⟨fs.statNode node, fs, [other]⟩, ?_, rfl⟩
  rw [join_listed hisDir (isListed_of_mem h), FileSystem.lstat, FileSystem.statPath,
    FileSystem.lookup_eq_ok_iff.mpr hother]
  simp only [hnode]

/-- Whether an entry is listed goes by its name. -/
theorem names_listed (transfer : NativeAttributes → NativeAttributes)
    (items : List (Name × Stat)) :
    ((items.map (listedEntry transfer)).filter fun entry ↦ !isDotEntry entry).map (·.name) =
      (items.map Prod.fst).filter fun name ↦ !(name = dot || name = dotdot) := by
  induction items with
  | nil => rfl
  | cons item items ih =>
    have hdot : isDotEntry (listedEntry transfer item) =
        (decide (item.1 = dot) || decide (item.1 = dotdot)) := rfl
    rw [List.map_cons, List.map_cons, List.filter_cons, List.filter_cons, hdot, ← ih]
    split_ifs <;> rfl

theorem children_of_listed (tree : FileTree) (loc : Loc) :
    (dot :: dotdot :: tree.children loc).filter (fun name ↦ !(name = dot || name = dotdot)) =
      tree.children loc := by
  rw [List.filter_cons_of_neg (by decide), List.filter_cons_of_neg (by decide),
    List.filter_eq_self]
  intro name hname
  have hproper : ProperName name :=
    FileTree.properName_of_mem (FileTree.mem_children_iff.mp hname) (by simp)
  simp [hproper.2.1, hproper.2.2.1]

end Names

/-! ### A listing -/

variable {session : ServedSession} {path : RemotePath}

/-- What is listed is in the directory, in its order and each name once. -/
structure ListedFrom (transfer : NativeAttributes → NativeAttributes) (fs : FileSystem)
    (canon : Path) (loc : Loc) (listed : List Attributes) : Prop where
  names : (listed.map (·.name)).Sublist (fs.tree.children loc)
  entries : ∀ entry ∈ listed, ∃ item, Genuine fs canon item ∧ entry = listedEntry transfer item

theorem path_opendirRequest (path : RemotePath) : (opendirRequest path).path = cString path :=
  cString_cString path

/-- What becomes of the part of a listing that follows the OPENDIR. -/
theorem listing_of_opened (hsound : session.world.Sound table) {canon : Path} {handle : Bytes}
    (hisDir : session.world.fs.tree.isDir loc = true)
    (hbrowsed : Browsed table session.world slot entry world) (hpath : entry.path = canon)
    (hstream : world.streams.lookup entry.dir =
      some ⟨loc, dot :: dotdot :: session.world.fs.tree.children loc⟩)
    (hhandle : handle = table.encode slot) (hledger : Ledger table none world)
    (hbacked : world.Backed) (options : Options) (transfer : NativeAttributes → NativeAttributes) :
    let directory : ServedDirectory := { handle, world }
    let run := ServedDirectory.listLoop table options transfer (directory.pending table + 1) []
      directory
    let closed := { session with world := world }.closeDirectory table options run.2
    run.2.lastError = { code := .ssh .ok } ∧
      ((run.1 = none ∧ Waiting table options session.world slot entry run.2.world ∧
          run.2.world.Sound table ∧ ¬ (session.world.faults = [] ∧ canon = ⟨true, loc⟩)) ∨
        ∃ listed, run.1 = some listed ∧ Unchanged session.world closed.world ∧
          closed.world.Sound table ∧ ListedFrom transfer session.world.fs canon loc listed ∧
          (session.world.faults = [] → canon = ⟨true, loc⟩ →
            listed.map (·.name) = session.world.fs.tree.children loc)) := by
  subst hhandle hpath
  intro directory run closed
  have hawaits : Awaits table transfer session.world slot entry loc directory []
      (dot :: dotdot :: session.world.fs.tree.children loc) :=
    ⟨⟨rfl, rfl, hbrowsed, hledger, hbacked⟩, hstream, rfl,
      fun _ hitem ↦ absurd hitem List.not_mem_nil⟩
  have hpending : directory.pending table =
      (dot :: dotdot :: session.world.fs.tree.children loc).length := by
    unfold ServedDirectory.pending
    rw [hbrowsed.held]
    change (pendingNames entry.dir world).1 = _
    rw [pendingNames, hstream]
    rfl
  have hunhindered : session.world.faults = [] → entry.path = ⟨true, loc⟩ →
      Unhindered session.world entry.path
        (dot :: dotdot :: session.world.fs.tree.children loc) := fun hfaults hcanon ↦
    ⟨hfaults, fun name hname ↦ hcanon ▸ genuine_listed hisDir hname⟩
  obtain ⟨after, hafter, herror, ⟨hloop, hwaiting, hhindered⟩ |
    ⟨items, hloop, hgenuine, hsublist, hwhole⟩⟩ :=
      listLoop_lists options (directory.pending table + 1) [] hawaits
        (by rw [hpending, List.length_nil, Nat.zero_add]; exact Nat.lt_succ_self _)
  · have hrun : run = (none, after) := hloop
    rw [hrun]
    exact ⟨herror, .inl ⟨rfl, hwaiting, ⟨hafter.ledger, hafter.backed,
      fun fault hfault ↦ hsound.whole fault (hafter.browsed.faults fault hfault)⟩,
      fun hfree ↦ hhindered (hunhindered hfree.1 hfree.2)⟩⟩
  have hrun : run = (some (([] : List Attributes) ++
    (items.map (listedEntry transfer)).filter fun entry ↦ !isDotEntry entry), after) := hloop
  let closing : ClientMessage := { type := fxpClose, handle := after.handle }
  have hunchanged := close_browsed table options (rfl : closing.type = fxpClose) hafter.handle
    hafter.browsed hafter.ledger
  have hclosed : closed.world = (serveMessage table options closing after.world).2 := by
    change (ServedSession.closeDirectory table options _ run.2).world = _
    rw [hrun]
    rfl
  rw [hclosed, hrun]
  refine ⟨herror, .inr ⟨_, rfl, hunchanged, ⟨serveMessage_ledger table options closing _
    hafter.ledger, serveMessage_backed table options closing _ hafter.backed,
    fun fault hfault ↦ hsound.whole fault (hunchanged.keeps.faults fault hfault)⟩,
    ⟨?_, fun other hother ↦ ?_⟩, fun hfaults hcanon ↦ ?_⟩⟩
  · rw [List.nil_append, names_listed, ← children_of_listed]
    exact hsublist.filter _
  · obtain ⟨item, hitem, rfl⟩ := List.mem_map.mp (List.mem_of_mem_filter hother)
    exact ⟨item, hgenuine item hitem, rfl⟩
  · have hnames := hwhole (hunhindered hfaults hcanon)
    rw [List.nil_append, names_listed, hnames]
    exact children_of_listed _ loc

/-- What a listing leaves of the session, and what it may list. -/
structure ListsSoundly (table : HandleTable) (options : Options)
    (transfer : NativeAttributes → NativeAttributes) (session : ServedSession) (path : RemotePath)
    (run : Option (Result (List Attributes)) × ServedSession) : Prop where
  same : ∃ world, run.2 = { session with world := world }
  sound : run.2.world.Sound table
  unchanged : ∀ result, run.1 = some result → Unchanged session.world run.2.world
  listed : ∀ listed, run.1 = some (.ok listed) → ∃ canon loc,
    Resolves session.world.fs options.root (cString path) canon ∧
    session.world.fs.lookup true canon = .ok loc ∧
    session.world.fs.tree.isDir loc = true ∧
    ListedFrom transfer session.world.fs canon loc listed
  waiting : run.1 = none →
    ∃ slot entry, Waiting table options session.world slot entry run.2.world

theorem unchanged_refl (world : World) : Unchanged world world := ⟨rfl, rfl, keepsOpen_refl world⟩

theorem listsSoundly_of_error {after : World} {info : ErrorInfo}
    (hunchanged : Unchanged session.world after) (hsound : after.Sound table) :
    ListsSoundly table options transfer session path
      (some (.error info), { session with world := after }) :=
  ⟨⟨after, rfl⟩, hsound, fun _ _ ↦ hunchanged, fun _ h ↦ (by cases h), fun h ↦ by cases h⟩

theorem tryOpenDirectory_of_handle {handle : Bytes} (hopen : session.isOpen = true)
    (h : answers table options (opendirRequest path) session.world = [.handle handle]) :
    session.tryOpenDirectory table options path =
      let after := (serveMessage table options (opendirRequest path) session.world).2
      (.ok { handle, world := after }, { session with world := after }) := by
  have hnot : ¬ session.isOpen = false := by rw [hopen]; exact Bool.noConfusion
  unfold ServedSession.tryOpenDirectory
  rw [if_neg hnot]
  dsimp only
  rw [h]
  rfl

theorem tryOpenDirectory_of_status {code : StatusCode} {text : String}
    (hopen : session.isOpen = true)
    (h : answers table options (opendirRequest path) session.world = [.status code text]) :
    session.tryOpenDirectory table options path =
      (.error (makeSftpErrorInfo code.number session.lastError "sftp_opendir"), { session with
        world := (serveMessage table options (opendirRequest path) session.world).2 }) := by
  have hnot : ¬ session.isOpen = false := by rw [hopen]; exact Bool.noConfusion
  unfold ServedSession.tryOpenDirectory
  rw [if_neg hnot]
  dsimp only
  rw [h]
  rfl

theorem tryList_of_error {info : ErrorInfo} {middle : ServedSession}
    (h : session.tryOpenDirectory table options path = (.error info, middle)) :
    session.tryList table options transfer path = (some (.error info), middle) := by
  unfold ServedSession.tryList
  rw [h]

section Opened

variable {middle : ServedSession}
  (hopened : session.tryOpenDirectory table options path = (.ok directory, middle))

include hopened

theorem tryList_of_waiting
    (hrun : (ServedDirectory.listLoop table options transfer (directory.pending table + 1) []
      directory).1 = none) :
    session.tryList table options transfer path = (none, { middle with
      world := (ServedDirectory.listLoop table options transfer (directory.pending table + 1) []
        directory).2.world }) := by
  unfold ServedSession.tryList
  rw [hopened]
  dsimp only
  rw [← Prod.mk.eta (p := ServedDirectory.listLoop table options transfer _ [] directory), hrun]

theorem tryList_of_listed {listed : List Attributes}
    (hrun : (ServedDirectory.listLoop table options transfer (directory.pending table + 1) []
      directory).1 = some listed)
    (herror : (ServedDirectory.listLoop table options transfer (directory.pending table + 1) []
      directory).2.lastError = { code := .ssh .ok }) :
    session.tryList table options transfer path = (some (.ok listed),
      middle.closeDirectory table options (ServedDirectory.listLoop table options transfer
        (directory.pending table + 1) [] directory).2) := by
  unfold ServedSession.tryList
  rw [hopened]
  dsimp only
  rw [← Prod.mk.eta (p := ServedDirectory.listLoop table options transfer _ [] directory), hrun]
  dsimp only
  rw [herror]
  rfl

end Opened

theorem tryList_listsSoundly (options : Options)
    (transfer : NativeAttributes → NativeAttributes) (hsound : session.world.Sound table)
    (path : RemotePath) :
    ListsSoundly table options transfer session path
      (session.tryList table options transfer path) := by
  by_cases hopen : session.isOpen = false
  · rw [tryList_of_error (if_pos hopen)]
    exact listsSoundly_of_error (unchanged_refl _) hsound
  rw [Bool.not_eq_false] at hopen
  obtain ⟨answer, hanswers, houtcome⟩ := opendir_outcome table options
    (rfl : (opendirRequest path).type = fxpOpendir) session.world
  have hledger := serveMessage_ledger table options (opendirRequest path) _ hsound.ledger
  have hbacked := serveMessage_backed table options (opendirRequest path) _ hsound.backed
  generalize hafter : (serveMessage table options (opendirRequest path) session.world).2 = after
    at houtcome hledger hbacked
  cases houtcome with
  | refused hcode hunchanged =>
    rw [tryList_of_error (tryOpenDirectory_of_status hopen hanswers), hafter]
    exact listsSoundly_of_error hunchanged ⟨hledger, hbacked,
      fun fault hfault ↦ hsound.whole fault (hunchanged.keeps.faults fault hfault)⟩
  | placed hresolves hloc hisDir hbrowsed hpath hstream =>
    have hopened := tryOpenDirectory_of_handle hopen hanswers
    rw [hafter] at hopened
    obtain ⟨herror, ⟨hrun, hwaiting, hsound, -⟩ | ⟨listed, hrun, hunchanged, hsound, hlisted, -⟩⟩ :=
      listing_of_opened hsound hisDir hbrowsed hpath hstream rfl hledger hbacked options transfer
    · rw [tryList_of_waiting hopened hrun]
      exact ⟨⟨_, rfl⟩, hsound, fun _ h ↦ (by cases h), fun _ h ↦ (by cases h),
        fun _ ↦ ⟨_, _, hwaiting⟩⟩
    · rw [tryList_of_listed hopened hrun herror]
      refine ⟨⟨_, rfl⟩, hsound, fun _ _ ↦ hunchanged, fun other hok ↦
        ⟨_, _, path_opendirRequest path ▸ hresolves, hloc, hisDir, ?_⟩, fun h ↦ by cases h⟩
      rw [← Except.ok.inj (Option.some.inj hok)]
      exact hlisted

/-- With nothing in its way a listing delivers the whole directory. -/
theorem tryList_whole (options : Options) (transfer : NativeAttributes → NativeAttributes)
    (hsound : session.world.Sound table) (hopen : session.isOpen = true)
    (hfaults : session.world.faults = []) (hpick : table.pick session.world.slots = some slot)
    (hresolves : Resolves session.world.fs options.root (cString path) ⟨true, loc⟩)
    (hisDir : session.world.fs.tree.isDir loc = true) :
    ∃ listed, (session.tryList table options transfer path).1 = some (.ok listed) ∧
      listed.map (·.name) = session.world.fs.tree.children loc := by
  have hpath : Resolves session.world.fs options.root (opendirRequest path).path ⟨true, loc⟩ :=
    (path_opendirRequest path).symm ▸ hresolves
  have hanswers := opendir_answers (rfl : (opendirRequest path).type = fxpOpendir) hfaults hpath
    (FileSystem.lookup_eq_ok_iff.mpr (resolve_physical hisDir true)) hisDir hpick
  obtain ⟨answer, hanswer, houtcome⟩ := opendir_outcome table options
    (rfl : (opendirRequest path).type = fxpOpendir) session.world
  have hledger := serveMessage_ledger table options (opendirRequest path) _ hsound.ledger
  have hbacked := serveMessage_backed table options (opendirRequest path) _ hsound.backed
  have hopened := tryOpenDirectory_of_handle hopen hanswers
  rw [hanswers] at hanswer
  generalize (serveMessage table options (opendirRequest path) session.world).2 = after
    at houtcome hledger hbacked hopened
  cases houtcome with
  | refused hcode hunchanged => cases hanswer
  | @placed canon other place entry world hcanon hloc hisDir' hbrowsed hentry hstream =>
    obtain rfl : canon = ⟨true, loc⟩ := by
      obtain ⟨-, -, hfirst, -⟩ := hcanon
      obtain ⟨-, -, hsecond, -⟩ := hpath
      exact Except.ok.inj (hfirst.symm.trans hsecond)
    obtain rfl : other = loc := Except.ok.inj (hloc.symm.trans
      (FileSystem.lookup_eq_ok_iff.mpr (resolve_physical hisDir true)))
    obtain ⟨herror, ⟨-, -, -, hhindered⟩ | ⟨listed, hrun, -, -, -, hwhole⟩⟩ :=
      listing_of_opened hsound hisDir hbrowsed hentry hstream
        (Reply.handle.inj (List.singleton_inj.mp hanswer)) hledger hbacked options transfer
    · exact absurd ⟨hfaults, rfl⟩ hhindered
    · refine ⟨listed, ?_, hwhole hfaults rfl⟩
      rw [tryList_of_listed hopened hrun herror]

/-- The listing of a directory that can be read but not searched is never over. -/
example : (ServedSession.tryList HandleTable.firstFree srvServer transferVersion3
    { singleFileSession with
      world := { singleFileSession.world with
        faults := [.none, .none, .none, .none, .none, .fail .eacces, .none, .fail .eacces, .none,
          .fail .eacces] } } (ascii "/")).1 = none := by
  decide +kernel

end LibSshpp.SftpServer
