import LibSshpp.Program.Batch
import LibSshpp.SftpServer.EntryRequests
import LibSshpp.SftpServer.ReadOnly

/-!
READDIR requests. A request reads the directory on from where the last one stopped,
leaves out the entries whose `lstat` fails, and reports at most 64 of the others.
-/

set_option autoImplicit false
set_option relaxedAutoImplicit false

namespace LibSshpp.SftpServer

open Posix Sftp Program

/-! ### The calls of one request -/

/-- How the call after `place` others goes wrong. -/
def World.faultAt (world : World) (place : ℕ) : Fault := (world.faults.drop place).headD .none

/-- Whether `readdir` fails on the entry at a place. Each entry takes two calls. -/
def readFails (world : World) (place : ℕ) : Bool := (world.faultAt (2 * place)).fails

/-- What `lstat` says of the entry at a place. -/
def lookUp (world : World) (path : Path) (place : ℕ) (name : Name) : Option (Name × Stat) :=
  if (world.faultAt (2 * place + 1)).fails then none
  else
    match world.fs.lstat (path.join (Path.ofBytes name)) with
    | .error _ => none
    | .ok done => some (name, done.value)

/-- `sftp_reply_names_add` of an entry. -/
def addition (found : Name × Stat) : Reply :=
  .namesAdd found.1 (formatLongname found.1 found.2) (fillAttributes found.2)

/-- What one request reports of the names that are left, and what it leaves. -/
def nextBatch (world : World) (path : Path) (names : List Name) :
    List (Name × Stat) × List Name :=
  batch (lookUp world path) (readFails world) 64 0 names

theorem readdir_of_fails {dir : ℕ} {world : World} (h : world.fault.fails = true) :
    readdir dir world = (none, world.called (.readdir dir) world.fs []) := by
  unfold readdir
  cases hfault : world.fault with
  | fail error => rfl
  | none => exact nomatch hfault ▸ h
  | short count => exact nomatch hfault ▸ h

/-- A read that does not fail takes the next name from the stream. -/
theorem readdir_of_stream {dir : ℕ} {world : World} {loc : Loc} {names : List Name}
    (h : world.fault.fails = false) (hstream : world.streams.lookup dir = some ⟨loc, names⟩) :
    ∃ after, readdir dir world = (names.head?, after) ∧ after.fs = world.fs ∧
      after.faults = world.faults.tail ∧ after.streams.lookup dir = some ⟨loc, names.tail⟩ ∧
        after.slots = world.slots ∧
          after.trace = world.trace ++ [.called (.readdir dir) [loc]] := by
  unfold readdir
  rw [hstream]
  cases hfault : world.fault with
  | fail error => exact nomatch hfault ▸ h
  | none => exact ⟨_, rfl, rfl, rfl, List.lookup_cons_self, rfl, rfl⟩
  | short count => exact ⟨_, rfl, rfl, rfl, List.lookup_cons_self, rfl, rfl⟩

theorem readdir_of_no_stream {dir : ℕ} {world : World} (h : world.streams.lookup dir = none) :
    readdir dir world = (none, world.called (.readdir dir) world.fs []) := by
  unfold readdir
  rw [h]
  cases world.fault <;> rfl

/-- `lstat` changes nothing, and its result is what `lookUp` says. -/
theorem lstat_lookUp {start world : World} {place : ℕ} (path : Path) (name : Name)
    (hfs : world.fs = start.fs) (hfaults : world.faults = start.faults.drop (2 * place + 1)) :
    ∃ result touched, lstat (path.join (Path.ofBytes name)) world =
        (result, world.called (.lstat (path.join (Path.ofBytes name))) world.fs touched) ∧
      lookUp start path place name = result.toOption.map (Prod.mk name) := by
  have hfault : start.faultAt (2 * place + 1) = world.fault := by
    rw [World.fault, hfaults]
    rfl
  unfold lookUp lstat
  rw [hfault, ← hfs]
  cases hfails : world.fault.fails with
  | true =>
    obtain ⟨error, hlstat⟩ := perform_of_fails hfails
    exact ⟨.error error, [], hlstat, rfl⟩
  | false =>
    rw [perform_of_passes hfails]
    cases hstat : world.fs.lstat (path.join (Path.ofBytes name)) with
    | error error => exact ⟨.error error, [], rfl, rfl⟩
    | ok done =>
      have hsame := FileSystem.fs_of_statPath hstat
      exact ⟨.ok done.value, done.touched, hsame ▸ rfl, rfl⟩

/-! ### The loop -/

/-- What a part of the request does: the table stays, the stream `dir` is left with `rest`, and
`replies` are made. -/
structure Lists (dir : ℕ) (world after : World) (loc : Loc) (rest : List Name)
    (replies : List Reply) : Prop where
  slots : after.slots = world.slots
  stream : after.streams.lookup dir = some ⟨loc, rest⟩
  trace : ∃ events, after.trace = world.trace ++ events ∧
    events.filterMap Event.reply = replies

/-- A call before the part. -/
theorem Lists.after_call {dir : ℕ} {world after : World} (mid : World) {loc : Loc}
    {rest : List Name} {replies : List Reply} (h : Lists dir mid after loc rest replies)
    {call : PosixCall} {touched : List Loc} (hslots : mid.slots = world.slots)
    (htrace : mid.trace = world.trace ++ [.called call touched]) :
    Lists dir world after loc rest replies := by
  obtain ⟨events, hevents, hreplies⟩ := h.trace
  refine ⟨h.slots.trans hslots, h.stream, .called call touched :: events, ?_, hreplies⟩
  rw [hevents, htrace, List.append_assoc, List.singleton_append]

/-- A reply before the part. -/
theorem Lists.after_reply {dir : ℕ} {world after : World} {loc : Loc} {rest : List Name}
    {answer : Reply} {replies : List Reply}
    (h : Lists dir (world.log (.replied answer)) after loc rest replies) :
    Lists dir world after loc rest (answer :: replies) := by
  obtain ⟨events, hevents, hreplies⟩ := h.trace
  refine ⟨h.slots, h.stream, .replied answer :: events, ?_, ?_⟩
  · rw [hevents, World.log, List.append_assoc, List.singleton_append]
  · exact congrArg (answer :: ·) hreplies

theorem readdirLoop_succ (dir : ℕ) (path : Path) (fuel : ℕ) (name : Name) (added : ℕ) :
    readdirLoop dir path (fuel + 1) name added = (do
      match ← lstat (path.join (Path.ofBytes name)) with
      | .error _ => readOn dir path fuel added
      | .ok st =>
        reply (addition (name, st))
        if 64 ≤ added + 1 then pure () else readOn dir path fuel (added + 1)) := rfl

variable {dir : ℕ} {path : Path} {start : World} {loc : Loc}

/-- The loop from a name that has been read on makes the batch of the names from there. -/
def LoopLists (dir : ℕ) (path : Path) (start : World) (loc : Loc) (rest : List Name) : Prop :=
  ∀ (name : Name) {world : World} {fuel place added : ℕ}, world.fs = start.fs →
    world.faults = start.faults.drop (2 * place + 1) →
    world.streams.lookup dir = some ⟨loc, rest⟩ → rest.length < fuel → added < 64 →
    readFails start place = false →
    let listed := batch (lookUp start path) (readFails start) (64 - added) place (name :: rest)
    Lists dir world (readdirLoop dir path fuel name added world).2 loc listed.2
      (listed.1.map addition)

theorem readOn_lists {rest : List Name}
    (hloop : ∀ next left, rest = next :: left → LoopLists dir path start loc left)
    (world : World) {fuel place added : ℕ} (hfs : world.fs = start.fs)
    (hfaults : world.faults = start.faults.drop (2 * place))
    (hstream : world.streams.lookup dir = some ⟨loc, rest⟩) (hfuel : rest.length ≤ fuel)
    (hadded : added < 64) :
    let listed := batch (lookUp start path) (readFails start) (64 - added) place rest
    Lists dir world (readOn dir path fuel added world).2 loc listed.2
      (listed.1.map addition) := by
  have hfault : start.faultAt (2 * place) = world.fault := by
    rw [World.fault, hfaults]
    rfl
  unfold readOn
  cases hfails : readFails start place with
  | true =>
    rw [batch_of_stops hfails, bind_of_eq (readdir_of_fails (hfault ▸ hfails))]
    exact ⟨rfl, hstream, [_], rfl, rfl⟩
  | false =>
    obtain ⟨after, hreads, hsame, htail, hleft, hslots, htrace⟩ :=
      readdir_of_stream (hfault ▸ hfails) hstream
    rw [bind_of_eq hreads]
    cases rest with
    | nil => exact ⟨hslots, hleft, [_], htrace, rfl⟩
    | cons next rest =>
      have hdrop : after.faults = start.faults.drop (2 * place + 1) := by
        rw [htail, hfaults, List.tail_drop]
      have hrest := hloop next rest rfl next (hsame.trans hfs) hdrop hleft hfuel hadded hfails
      exact Lists.after_call after hrest hslots htrace

theorem readdirLoop_lists (dir : ℕ) (path : Path) (start : World) (loc : Loc)
    (rest : List Name) : LoopLists dir path start loc rest := by
  have hstep : ∀ rest : List Name,
      (∀ next left, rest = next :: left → LoopLists dir path start loc left) →
        LoopLists dir path start loc rest := by
    intro rest hloop name world fuel place added hfs hfaults hstream hfuel hadded hread
    obtain ⟨fuel, rfl⟩ := Nat.exists_eq_succ_of_ne_zero (Nat.ne_zero_of_lt hfuel)
    have hroom : 64 - added ≠ 0 := Nat.sub_ne_zero_of_lt hadded
    obtain ⟨result, touched, hlstat, hlook⟩ := lstat_lookUp path name hfs hfaults
    let called := world.called (.lstat (path.join (Path.ofBytes name))) world.fs touched
    have htail : called.faults = start.faults.drop (2 * (place + 1)) := by
      change world.faults.tail = _
      rw [hfaults, List.tail_drop]
      rfl
    have htrace : called.trace =
        world.trace ++ [.called (.lstat (path.join (Path.ofBytes name))) touched] := rfl
    rw [readdirLoop_succ, bind_of_eq hlstat]
    cases result with
    | error error =>
      rw [batch_of_skip hroom hread hlook]
      have hrest := readOn_lists hloop called hfs htail hstream (Nat.le_of_lt_succ hfuel) hadded
      exact Lists.after_call called hrest rfl htrace
    | ok st =>
      rw [batch_of_found hroom hread hlook]
      refine Lists.after_call called (Lists.after_reply ?_) rfl htrace
      let replied := called.log (.replied (addition (name, st)))
      change Lists dir replied ((if 64 ≤ added + 1 then pure ()
        else readOn dir path fuel (added + 1) : ServerM Unit) replied).2 loc _ _
      by_cases hfull : 64 ≤ added + 1
      · have hlast : 64 - added - 1 = 0 := by omega
        rw [if_pos hfull, hlast, batch_of_full]
        exact ⟨rfl, hstream, [], (List.append_nil _).symm, rfl⟩
      · rw [if_neg hfull, Nat.sub_sub]
        exact readOn_lists hloop replied hfs htail hstream (Nat.le_of_lt_succ hfuel)
          (Nat.lt_of_not_le hfull)
  induction rest with
  | nil => exact hstep [] fun next left h ↦ nomatch h
  | cons next rest ih =>
    exact hstep (next :: rest) fun other left h ↦ (List.cons.inj h).2 ▸ ih

/-! ### The answer to a READDIR request -/

/-- A reply after the part. -/
theorem Lists.replied {dir : ℕ} {world after : World} {loc : Loc} {rest : List Name}
    {replies : List Reply} (h : Lists dir world after loc rest replies) (answer : Reply) :
    Lists dir world (after.log (.replied answer)) loc rest (replies ++ [answer]) := by
  obtain ⟨events, hevents, hreplies⟩ := h.trace
  refine ⟨h.slots, h.stream, events ++ [.replied answer], ?_, ?_⟩
  · rw [World.log, hevents, List.append_assoc]
  · rw [List.filterMap_append, hreplies]
    rfl

/-- The answer of a request that finds the names on the stream. -/
def listing (world : World) (path : Path) (names : List Name) : List Reply :=
  if readFails world 0 = true ∨ names = [] then [.status .eof ""]
  else (nextBatch world path names).1.map addition ++ [.names]

theorem serveReaddir_of_held {table : HandleTable} {message : ClientMessage} {world : World}
    {entry : HandleEntry} (hheld : Held table message world entry) (hdir : entry.isDir = true) :
    serveReaddir table message world = (do
      match ← readdir entry.dir with
      | none => replyStatus .eof ""
      | some name =>
        let pending ← pendingNames entry.dir
        readdirLoop entry.dir entry.path (pending + 1) name 0
        reply .names) world := by
  have hlookup : table.sftpHandle message.handle world = (some entry, world) :=
    Prod.ext hheld rfl
  unfold serveReaddir
  have hnot : ¬ entry.isDir = false := by
    rw [hdir]
    exact Bool.noConfusion
  rw [bind_of_eq hlookup]
  exact congrFun (if_neg hnot) world

theorem serveReaddir_lists {table : HandleTable} {message : ClientMessage} {world : World}
    {entry : HandleEntry} (hheld : Held table message world entry) (hdir : entry.isDir = true)
    {loc : Loc} {names : List Name}
    (hstream : world.streams.lookup entry.dir = some ⟨loc, names⟩) :
    Lists entry.dir world (serveReaddir table message world).2 loc
      (nextBatch world entry.path names).2 (listing world entry.path names) := by
  rw [serveReaddir_of_held hheld hdir, listing, nextBatch]
  cases hfails : readFails world 0 with
  | true =>
    rw [if_pos (Or.inl rfl), batch_of_stops hfails, bind_of_eq (readdir_of_fails hfails)]
    have hend :
        Lists entry.dir world (world.called (.readdir entry.dir) world.fs []) loc names [] :=
      ⟨rfl, hstream, [_], rfl, rfl⟩
    exact hend.replied (.status .eof "")
  | false =>
    obtain ⟨after, hreads, hsame, htail, hleft, hslots, htrace⟩ :=
      readdir_of_stream hfails hstream
    rw [bind_of_eq hreads]
    cases names with
    | nil =>
      rw [if_pos (Or.inr rfl)]
      have hend : Lists entry.dir world after loc [] [] := ⟨hslots, hleft, [_], htrace, rfl⟩
      exact hend.replied (.status .eof "")
    | cons name rest =>
      have hpending : pendingNames entry.dir after = (rest.length, after) := by
        rw [pendingNames, hleft]
        rfl
      have hdrop : after.faults = world.faults.drop (2 * 0 + 1) := by
        rw [htail, List.drop_one]
      have hloop := readdirLoop_lists entry.dir entry.path world loc rest name hsame hdrop hleft
        (Nat.lt_succ_self _) (Nat.zero_lt_succ 63) hfails
      rw [if_neg (by simp), List.head?_cons]
      change Lists _ _ ((pendingNames entry.dir >>= fun pending ↦ do
        readdirLoop entry.dir entry.path (pending + 1) name 0
        reply .names) after).2 _ _ _
      rw [bind_of_eq hpending]
      exact (Lists.after_call after hloop hslots htrace).replied .names

theorem serveRequest_of_readdir (table : HandleTable) (options : Options)
    {message : ClientMessage} (htype : message.type = fxpReaddir) :
    serveRequest table options message = serveReaddir table message := by
  unfold serveRequest
  simp only [htype]
  rfl

/-- A READDIR request on a directory handle answers with the next batch. -/
theorem answers_readdir {table : HandleTable} (options : Options) {message : ClientMessage}
    {world : World} (htype : message.type = fxpReaddir) {entry : HandleEntry}
    (hheld : Held table message world entry) (hdir : entry.isDir = true) {loc : Loc}
    {names : List Name} (hstream : world.streams.lookup entry.dir = some ⟨loc, names⟩) :
    answers table options message world = listing world entry.path names ∧
      (serveMessage table options message world).2.slots = world.slots ∧
        (serveMessage table options message world).2.streams.lookup entry.dir =
          some ⟨loc, (nextBatch world entry.path names).2⟩ := by
  have hheld' : Held table message (world.log (.received message)) entry := hheld
  have hlists := serveReaddir_lists hheld' hdir hstream
  rw [← serveRequest_of_readdir table options htype] at hlists
  obtain ⟨events, htrace, hreplies⟩ := hlists.trace
  refine ⟨?_, hlists.slots, hlists.stream⟩
  rw [(answers_of_trace events rfl htrace).1, hreplies]
  rfl

theorem answers_readdir_of_no_stream {table : HandleTable} (options : Options)
    {message : ClientMessage} {world : World} (htype : message.type = fxpReaddir)
    {entry : HandleEntry} (hheld : Held table message world entry) (hdir : entry.isDir = true)
    (hstream : world.streams.lookup entry.dir = none) :
    answers table options message world = [.status .eof ""] := by
  have hheld' : Held table message (world.log (.received message)) entry := hheld
  have hstream' : (world.log (.received message)).streams.lookup entry.dir = none := hstream
  have hserve : serveRequest table options message (world.log (.received message)) =
      ((), ((world.log (.received message)).called (.readdir entry.dir) world.fs []).log
        (.replied (.status .eof ""))) := by
    rw [serveRequest_of_readdir table options htype, serveReaddir_of_held hheld' hdir,
      bind_of_eq (readdir_of_no_stream hstream')]
    rfl
  exact (answers_of_called _ _ _ hserve).1

theorem answers_readdir_of_not_dir {table : HandleTable} (options : Options)
    {message : ClientMessage} {world : World} (htype : message.type = fxpReaddir)
    (hnot : ∀ entry, Held table message world entry → entry.isDir = false) :
    answers table options message world = [.status .invalidHandle ""] := by
  refine answers_of_refused ?_
  rw [serveRequest_of_readdir table options htype]
  unfold serveReaddir
  cases hheld : (table.decode message.handle).bind world.slots with
  | none =>
    have hlookup : table.sftpHandle message.handle (world.log (.received message)) =
        (none, world.log (.received message)) := Prod.ext hheld rfl
    rw [bind_of_eq hlookup]
    rfl
  | some entry =>
    have hlookup : table.sftpHandle message.handle (world.log (.received message)) =
        (some entry, world.log (.received message)) := Prod.ext hheld rfl
    rw [bind_of_eq hlookup]
    simp only [hnot entry hheld, if_true]
    rfl

/-! ### No empty list of names -/

/-- A list of names that is sent has between 1 and 64 entries, and they were collected before. -/
def NamesFilled (replies : List Reply) : Prop :=
  .names ∈ replies → ∃ found : List (Name × Stat), replies = found.map addition ++ [.names] ∧
    1 ≤ found.length ∧ found.length ≤ 64

/-- An entry that is left can be reported: no `readdir` fails before it is read, and its
`lstat` succeeds. -/
def CanReport (world : World) (entry : HandleEntry) : Prop :=
  ∃ stream, world.streams.lookup entry.dir = some stream ∧
    Reaches (lookUp world entry.path) (readFails world) 0 stream.pending

/-- What READDIR requests are meant to be answered with. -/
structure ListsProperly (table : HandleTable) (options : Options) (world : World)
    (message : ClientMessage) : Prop where
  filled : message.type = fxpReaddir → NamesFilled (answers table options message world)
  ended : message.type = fxpReaddir → ∀ entry, Held table message world entry →
    entry.isDir = true → ¬ CanReport world entry →
      answers table options message world = [.status .eof ""]

/-- A READDIR request for which `readdir` returns an entry can report that one or a later one. -/
def ReadIsReported (table : HandleTable) (world : World) (message : ClientMessage) : Prop :=
  message.type = fxpReaddir → ∀ entry, Held table message world entry → entry.isDir = true →
    ∀ stream, world.streams.lookup entry.dir = some stream → stream.pending ≠ [] →
      readFails world 0 = false → CanReport world entry

theorem listing_of_end {world : World} {path : Path} {names : List Name}
    (h : readFails world 0 = true ∨ names = []) : listing world path names = [.status .eof ""] :=
  if_pos h

theorem listing_of_read {world : World} {path : Path} {names : List Name}
    (hread : readFails world 0 = false) (hnames : names ≠ []) :
    listing world path names = (nextBatch world path names).1.map addition ++ [.names] :=
  if_neg (by simp [hread, hnames])

theorem namesFilled_of_not_mem {replies : List Reply} (h : .names ∉ replies) :
    NamesFilled replies := fun hmem ↦ absurd hmem h

/-- A request that can report what it reads sends no list without names. -/
theorem namesFilled_of_reported {table : HandleTable} (options : Options)
    {message : ClientMessage} {world : World} (htype : message.type = fxpReaddir)
    (h : ReadIsReported table world message) :
    NamesFilled (answers table options message world) := by
  by_cases hdir : ∃ entry, Held table message world entry ∧ entry.isDir = true
  · obtain ⟨entry, hheld, hdir⟩ := hdir
    cases hstream : world.streams.lookup entry.dir with
    | none =>
      rw [answers_readdir_of_no_stream options htype hheld hdir hstream]
      exact namesFilled_of_not_mem (by decide)
    | some stream =>
      rw [(answers_readdir options htype hheld hdir hstream).1]
      by_cases hend : readFails world 0 = true ∨ stream.pending = []
      · rw [listing_of_end hend]
        exact namesFilled_of_not_mem (by decide)
      · have hread : readFails world 0 = false := by simpa using fun hfails ↦ hend (Or.inl hfails)
        have hnames : stream.pending ≠ [] := fun hnil ↦ hend (Or.inr hnil)
        obtain ⟨other, hother, hreaches⟩ := h htype entry hheld hdir stream hstream hnames hread
        obtain rfl := Option.some.inj (hstream.symm.trans hother)
        rw [listing_of_read hread hnames]
        refine fun _ ↦ ⟨_, rfl, ?_, batch_length 64 0 _⟩
        refine Nat.one_le_iff_ne_zero.mpr fun hzero ↦ ?_
        have hnil := List.length_eq_zero_iff.mp hzero
        exact (batch_eq_nil_iff (by decide) stream.pending).mp hnil hreaches
  · rw [answers_readdir_of_not_dir options htype fun entry hheld ↦ ?_]
    · exact namesFilled_of_not_mem (by decide)
    · simpa using fun htrue ↦ hdir ⟨entry, hheld, htrue⟩

/-- A request that reads an entry and can report none calls `sftp_reply_names` alone. -/
theorem answers_of_unreported {table : HandleTable} (options : Options)
    {message : ClientMessage} {world : World} (htype : message.type = fxpReaddir)
    {entry : HandleEntry} (hheld : Held table message world entry) (hdir : entry.isDir = true)
    {stream : DirStream} (hstream : world.streams.lookup entry.dir = some stream)
    (hnames : stream.pending ≠ []) (hread : readFails world 0 = false)
    (hnone : ¬ CanReport world entry) : answers table options message world = [.names] := by
  have hempty : (nextBatch world entry.path stream.pending).1 = [] :=
    (batch_eq_nil_iff (by decide) stream.pending).mpr fun hreaches ↦
      hnone ⟨stream, hstream, hreaches⟩
  rw [(answers_readdir options htype hheld hdir hstream).1, listing_of_read hread hnames, hempty]
  rfl

/-- The lists of names are never empty, and the end of a directory is reported as such,
exactly as long as no request reads an entry and can report neither it nor a later one. -/
theorem listsProperly_iff (table : HandleTable) (options : Options)
    (messages : List ClientMessage) (world : World) :
    Allowed (serveMessage table options) (ListsProperly table options) messages world ↔
      Allowed (serveMessage table options) (ReadIsReported table) messages world := by
  refine allowed_congr fun world message ↦ ⟨fun h htype entry hheld hdir stream hstream hnames
    hread ↦ ?_, fun h ↦ ⟨fun htype ↦ namesFilled_of_reported options htype h,
      fun htype entry hheld hdir hnone ↦ ?_⟩⟩
  · by_contra hnone
    have hended := h.ended htype entry hheld hdir hnone
    rw [answers_of_unreported options htype hheld hdir hstream hnames hread hnone] at hended
    exact absurd hended (by decide)
  · cases hstream : world.streams.lookup entry.dir with
    | none => exact answers_readdir_of_no_stream options htype hheld hdir hstream
    | some stream =>
      rw [(answers_readdir options htype hheld hdir hstream).1]
      refine listing_of_end (or_iff_not_imp_left.mpr fun hread ↦ ?_)
      by_contra hnames
      exact hnone (h htype entry hheld hdir stream hstream hnames (by simpa using hread))

/-- In a directory that can be read but not searched every `lstat` fails, and a list without
names is sent. -/
theorem unsearchable_listed_empty :
    ¬ Allowed (serveMessage HandleTable.firstFree srvServer)
      (ListsProperly HandleTable.firstFree srvServer)
      [{ type := fxpOpendir, filename := some (ascii "/") },
        { type := fxpReaddir, handle := [0, 0, 0, 0] }]
      (World.begin singleFile [] [] (List.replicate 4 .none ++
        [.none, .fail .eacces, .none, .fail .eacces, .none, .fail .eacces])) := by
  rintro ⟨-, h, -⟩
  obtain ⟨found, hfound, hlength, -⟩ := h.filled rfl (by decide +kernel)
  have hempty : answers HandleTable.firstFree srvServer
      { type := fxpReaddir, handle := [0, 0, 0, 0] }
      (serveMessage HandleTable.firstFree srvServer
        { type := fxpOpendir, filename := some (ascii "/") }
        (World.begin singleFile [] [] (List.replicate 4 .none ++
          [.none, .fail .eacces, .none, .fail .eacces, .none, .fail .eacces]))).2 =
      [.names] := by decide +kernel
  have hcount := congrArg List.length (hempty.symm.trans hfound)
  simp only [List.length_singleton, List.length_append, List.length_map] at hcount
  omega

end LibSshpp.SftpServer
