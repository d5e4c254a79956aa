import LibSshpp.Posix.NewObjects
import LibSshpp.Sftp.DownloadTree

/-!
What `try_download_tree` leaves behind for a server that serves a finite tree honestly,
with a destination that is empty or missing: the tree without its links, special and
unknown entries and unsafe names, and counters that account for every entry.
-/

set_option autoImplicit false
set_option relaxedAutoImplicit false

namespace LibSshpp.Sftp

open Posix Program

/-! ### Remote trees -/

/-- What is neither a regular file nor a directory. -/
abbrev OtherType := { type : FileType // type ≠ .regular ∧ type ≠ .directory }

/-- The entries of a remote directory in the order in which it lists them. -/
inductive RemoteEntries
  | nil
  | file (name content : Bytes) (rest : RemoteEntries)
  | directory (name : Bytes) (entries rest : RemoteEntries)
  | other (name : Bytes) (type : OtherType) (rest : RemoteEntries)
  deriving DecidableEq

namespace RemoteEntries

def names : RemoteEntries → List Bytes
  | nil => []
  | file name _ rest => name :: rest.names
  | directory name _ rest => name :: rest.names
  | other name _ rest => name :: rest.names

/-- What a listing tells of the entries. -/
def listed : RemoteEntries → List (Bytes × FileType)
  | nil => []
  | file name _ rest => (name, .regular) :: rest.listed
  | directory name _ rest => (name, .directory) :: rest.listed
  | other name type rest => (name, type.val) :: rest.listed

/-- No directory has two entries of one name. -/
def Distinct : RemoteEntries → Prop
  | nil => True
  | file name _ rest => name ∉ rest.names ∧ rest.Distinct
  | directory name entries rest => name ∉ rest.names ∧ entries.Distinct ∧ rest.Distinct
  | other name _ rest => name ∉ rest.names ∧ rest.Distinct

/-- How many directories lie within one another. -/
def depth : RemoteEntries → ℕ
  | nil => 0
  | file _ _ rest => rest.depth
  | directory _ entries rest => max (entries.depth + 1) rest.depth
  | other _ _ rest => rest.depth

/-- The tree without unsafe names and without what is no file or directory. -/
def kept : RemoteEntries → RemoteEntries
  | nil => nil
  | file name content rest =>
    if isSafeEntryName name then file name content rest.kept else rest.kept
  | directory name entries rest =>
    if isSafeEntryName name then directory name entries.kept rest.kept else rest.kept
  | other _ _ rest => rest.kept

def files : RemoteEntries → ℕ
  | nil => 0
  | file _ _ rest => 1 + rest.files
  | directory _ entries rest => entries.files + rest.files
  | other _ _ rest => rest.files

def directories : RemoteEntries → ℕ
  | nil => 0
  | file _ _ rest => rest.directories
  | directory _ entries rest => 1 + entries.directories + rest.directories
  | other _ _ rest => rest.directories

def bytes : RemoteEntries → ℕ
  | nil => 0
  | file _ content rest => content.length + rest.bytes
  | directory _ entries rest => entries.bytes + rest.bytes
  | other _ _ rest => rest.bytes

/-- The entries of this directory and of those below it with safe names. -/
def visited : RemoteEntries → ℕ
  | nil => 0
  | file _ _ rest => 1 + rest.visited
  | directory name entries rest =>
    1 + (if isSafeEntryName name then entries.visited else 0) + rest.visited
  | other _ _ rest => 1 + rest.visited

/-- The entries that are visited and not copied. -/
def skipped : RemoteEntries → ℕ
  | nil => 0
  | file name _ rest => (if isSafeEntryName name then 0 else 1) + rest.skipped
  | directory name entries rest =>
    (if isSafeEntryName name then entries.skipped else 1) + rest.skipped
  | other _ _ rest => 1 + rest.skipped

/-- The object at `first / below`. -/
def lookup : RemoteEntries → Bytes → List Bytes → Option LocalObject
  | nil, _, _ => none
  | file name content rest, first, below =>
    if first = name then if below = [] then some (.file content) else none
    else rest.lookup first below
  | directory name entries rest, first, below =>
    if first = name then
      match below with
      | [] => some .directory
      | next :: below => entries.lookup next below
    else rest.lookup first below
  | other _ _ rest, first, below => rest.lookup first below

/-- Every entry is counted once. -/
theorem counts_visited (entries : RemoteEntries) :
    entries.kept.files + entries.kept.directories + entries.skipped = entries.visited := by
  induction entries with
  | nil => rfl
  | file name content rest ih =>
    by_cases hsafe : isSafeEntryName name = true
    · simp only [kept, skipped, visited, hsafe, if_true, files, directories]
      omega
    · simp only [kept, skipped, visited, hsafe]
      simp only [Bool.false_eq_true, if_false]
      omega
  | directory name entries rest ihEntries ih =>
    by_cases hsafe : isSafeEntryName name = true
    · simp only [kept, skipped, visited, hsafe, if_true, files, directories]
      omega
    · simp only [kept, skipped, visited, hsafe]
      simp only [Bool.false_eq_true, if_false]
      omega
  | other name type rest ih =>
    simp only [kept, skipped, visited]
    omega

theorem names_kept_subset (entries : RemoteEntries) : entries.kept.names ⊆ entries.names := by
  induction entries with
  | nil => exact fun _ h ↦ h
  | file name content rest ih =>
    rw [kept]
    split_ifs
    · exact List.cons_subset_cons name ih
    · exact List.Subset.trans ih (List.subset_cons_self _ _)
  | directory name entries rest _ ih =>
    rw [kept]
    split_ifs
    · exact List.cons_subset_cons name ih
    · exact List.Subset.trans ih (List.subset_cons_self _ _)
  | other name type rest ih => exact List.Subset.trans ih (List.subset_cons_self _ _)

theorem lookup_directory_of_ne {name first : Bytes} (h : first ≠ name)
    (entries rest : RemoteEntries) (below : List Bytes) :
    (directory name entries rest).lookup first below = rest.lookup first below := by
  cases below with
  | nil => rw [lookup, if_neg h]
  | cons next below => rw [lookup, if_neg h]

theorem lookup_of_notMem {entries : RemoteEntries} {first : Bytes} (h : first ∉ entries.names)
    (below : List Bytes) : entries.lookup first below = none := by
  induction entries with
  | nil => rfl
  | file name content rest ih =>
    rw [names, List.mem_cons, not_or] at h
    rw [lookup, if_neg h.1]
    exact ih h.2
  | directory name entries rest _ ih =>
    rw [names, List.mem_cons, not_or] at h
    rw [lookup_directory_of_ne h.1]
    exact ih h.2
  | other name type rest ih =>
    rw [names, List.mem_cons, not_or] at h
    exact ih h.2

end RemoteEntries

/-! ### Honest servers -/

variable {ω : Type}

/-- The listing tells the names and types of the entries, besides `.` and `..`, and ends
without a failure. -/
structure ListingSession.Lists (sftp : ListingSession) (entries : RemoteEntries) : Prop where
  isOpen : sftp.isOpen = true
  refusal : sftp.refusal = none
  complete : ListingSession.failureStatus sftp.outcomes = none
  entries : ((ListingSession.entriesBefore sftp.outcomes).filter fun entry ↦
    !ListingSession.isDotEntry entry).map (fun entry ↦ (entry.name, entry.type)) = entries.listed

/-- The server serves the files and directories with safe names among the entries of the
directory at `remote`, whatever it was asked before. -/
def TreeServer.Serves (server : TreeServer ω) : RemotePath → RemoteEntries → Prop
  | _, .nil => True
  | remote, .file name content rest =>
    (isSafeEntryName name = true → ∀ state,
      (server.session (remote.join name) state).1.Serves content) ∧ server.Serves remote rest
  | remote, .directory name entries rest =>
    (isSafeEntryName name = true →
      (∀ state, (server.listing (remote.join name) state).1.Lists entries) ∧
        server.Serves (remote.join name) entries) ∧ server.Serves remote rest
  | remote, .other _ _ rest => server.Serves remote rest

theorem ListingSession.Lists.tryList {sftp : ListingSession} {entries : RemoteEntries}
    (h : sftp.Lists entries) :
    ∃ listing, sftp.tryList = .ok listing ∧
      listing.map (fun entry ↦ (entry.name, entry.type)) = entries.listed := by
  have hset : (errorAfter sftp.outcomes).isSet = false := by
    rw [← Bool.not_eq_true, errorAfter_isSet, h.complete]
    rintro ⟨status, hstatus, -⟩
    exact nomatch hstatus
  refine ⟨_, ?_, h.entries⟩
  rw [tryList_eq h.isOpen h.refusal, hset]
  rfl

/-- The server, beside the local file system. -/
def TreeServer.beside (server : TreeServer ω) : TreeServer (FileSystem × ω) where
  listing path := fun (fs, state) ↦
    let (sftp, state) := server.listing path state
    (sftp, fs, state)
  session path := fun (fs, state) ↦
    let (sftp, state) := server.session path state
    (sftp, fs, state)

/-- The local file system, beside the server. -/
def posixDisk : TreeDisk (FileSystem × ω) where
  createDirectories path := fun (fs, state) ↦
    let (result, fs) := fs.createDirectories path
    (result, fs, state)
  weaklyCanonical path := fun (fs, state) ↦ (fs.weaklyCanonical path, fs, state)
  localFile path := fun (fs, state) ↦ (fs.localFile path, fs, state)
  storeFile path file := fun (fs, state) ↦ ((), fs.storeFile path file, state)

section World

variable (server : TreeServer ω) (remote : RemotePath) (path : Path)
  (run : TreeRun (FileSystem × ω))

theorem record_apply (write : LocalWrite) :
    TreeRun.record write run = ((), { run with writes := run.writes ++ [write] }) := rfl

theorem call_listing : TreeRun.call (server.beside.listing remote) run =
    ((server.listing remote run.world.2).1,
      { run with world := (run.world.1, (server.listing remote run.world.2).2) }) := rfl

theorem call_session : TreeRun.call (server.beside.session remote) run =
    ((server.session remote run.world.2).1,
      { run with world := (run.world.1, (server.session remote run.world.2).2) }) := rfl

theorem call_createDirectories : TreeRun.call (posixDisk.createDirectories path) run =
    ((run.world.1.createDirectories path).1,
      { run with world := ((run.world.1.createDirectories path).2, run.world.2) }) := rfl

theorem call_weaklyCanonical : TreeRun.call (posixDisk.weaklyCanonical path) run =
    (run.world.1.weaklyCanonical path, run) := rfl

theorem call_localFile : TreeRun.call (posixDisk.localFile path) run =
    (run.world.1.localFile path, run) := rfl

theorem call_storeFile (file : LocalFile) : TreeRun.call (posixDisk.storeFile path file) run =
    ((), { run with world := (run.world.1.storeFile path file, run.world.2) }) := rfl

end World

/-! ### Local names -/

theorem SafeName.proper {name : Bytes} (h : SafeName name) : ProperName name := by
  have hdot : ascii "." = dot := by decide +kernel
  have hdotdot : ascii ".." = dotdot := by decide +kernel
  exact ⟨h.ne_nil, hdot ▸ h.ne_dot, hdotdot ▸ h.ne_dotdot, h.no_slash⟩

theorem join_ofBytes {name : Bytes} (hname : SafeName name) (path : Path) :
    path.join (.ofBytes name) = ⟨path.absolute, path.entry.comps ++ [name]⟩ := by
  rw [Path.ofBytes_name hname.ne_nil hname.no_slash, Path.join, if_neg Bool.false_ne_true,
    if_neg (List.cons_ne_nil name [])]

/-- The text of a directory begins the text of its entries. -/
theorem text_isPrefix (dir : Loc) (name : Name) :
    (⟨true, dir⟩ : Path).text <+: (⟨true, dir ++ [name]⟩ : Path).text := by
  unfold Path.text
  refine (List.prefix_append_right_inj _).mpr ?_
  induction dir with
  | nil => exact List.nil_prefix
  | cons first rest ih =>
    cases rest with
    | nil => simp [List.intercalate, List.intersperse]
    | cons second rest =>
      simp only [List.intercalate, List.cons_append, List.intersperse_cons_cons,
        List.flatten_cons] at ih ⊢
      exact (List.prefix_append_right_inj first).mpr (List.cons_prefix_cons.mpr ⟨rfl, ih⟩)

/-- A free name of the destination stays below it. -/
theorem staysBelow_free {fs : FileSystem} {path : Path} {dir : Loc} {name : Bytes}
    (h : Leads fs path.absolute path.entry.comps dir)
    (hne : ¬ (path.absolute = false ∧ path.entry.comps = [])) (hname : SafeName name)
    (hfree : fs.tree.get (dir ++ [name]) = none) :
    staysBelow (fs.weaklyCanonical path) (fs.weaklyCanonical (path.join (.ofBytes name))) =
      true := by
  have hentry := isEntryName_of_proper hname.proper
  have hresolve := h.resolve hne
  rw [join_ofBytes hname, FileSystem.weaklyCanonical_of_found (h.resolve_path hne),
    weaklyCanonical_of_dangling hentry hresolve
      (statusExists_of_free hentry hresolve h.isDir hfree), staysBelow, List.isPrefixOf_iff_prefix]
  exact text_isPrefix dir name

/-! ### One entry of a listing -/

section Entry

variable {server : TreeServer ω} {opts : TransferOptions} {remote : RemotePath} {path : Path}
  {entries rest : List Attributes} {entry : Attributes} {stats : TreeStats}
  {run after : TreeRun (FileSystem × ω)}
  {recurse : RemotePath → Path → List Attributes →
    StateM (TreeRun (FileSystem × ω)) (Option (Result TreeStats))}

theorem downloadEntries_refused (hname : isSafeEntryName entry.name = false) :
    downloadEntries server.beside posixDisk opts recurse remote path entries (entry :: rest) stats =
      downloadEntries server.beside posixDisk opts recurse remote path entries rest stats.skip := by
  rw [downloadEntries, if_pos hname]

theorem downloadEntries_other (hregular : entry.type ≠ .regular)
    (hdirectory : entry.type ≠ .directory) :
    downloadEntries server.beside posixDisk opts recurse remote path entries (entry :: rest) stats
        run =
      downloadEntries server.beside posixDisk opts recurse remote path entries rest stats.skip
        run := by
  by_cases hname : isSafeEntryName entry.name = false
  · rw [downloadEntries_refused hname]
  · rw [downloadEntries, if_neg hname, bind_of_eq (call_weaklyCanonical _ _),
      bind_of_eq (call_weaklyCanonical _ _), if_neg hdirectory, if_neg hregular, ite_self, ite_self]

section Checked

variable (hname : isSafeEntryName entry.name = true)
  (hbelow : staysBelow (run.world.1.weaklyCanonical path)
    (run.world.1.weaklyCanonical (path.join (.ofBytes entry.name))) = true)

include hname hbelow

theorem downloadEntries_directory (htype : entry.type = .directory) {sub : TreeStats}
    (hrun : recurse (remote.join entry.name) (path.join (.ofBytes entry.name)) (entries ++ [entry])
      run = (some (.ok sub), after)) :
    downloadEntries server.beside posixDisk opts recurse remote path entries (entry :: rest) stats
        run =
      downloadEntries server.beside posixDisk opts recurse remote path entries rest {
        files := stats.files + sub.files
        directories := stats.directories + (1 + sub.directories)
        bytes := stats.bytes + sub.bytes
        skipped := stats.skipped + sub.skipped } after := by
  rw [downloadEntries, if_neg (by rw [hname]; decide), bind_of_eq (call_weaklyCanonical _ _),
    bind_of_eq (call_weaklyCanonical _ _), if_neg (by rw [hbelow]; decide),
    if_neg (by rw [htype]; decide), if_pos htype, bind_of_eq hrun]

theorem downloadEntries_regular (htype : entry.type = .regular) {n : ℕ}
    (hrun : downloadEntry server.beside posixDisk opts (remote.join entry.name)
      (path.join (.ofBytes entry.name)) (entries ++ [entry]) run = (.ok n, after)) :
    downloadEntries server.beside posixDisk opts recurse remote path entries (entry :: rest) stats
        run =
      downloadEntries server.beside posixDisk opts recurse remote path entries rest
        { stats with files := stats.files + 1, bytes := stats.bytes + n } after := by
  rw [downloadEntries, if_neg (by rw [hname]; decide), bind_of_eq (call_weaklyCanonical _ _),
    bind_of_eq (call_weaklyCanonical _ _), if_neg (by rw [hbelow]; decide),
    if_neg (by rw [htype]; decide), if_neg (by rw [htype]; decide), if_pos htype, bind_of_eq hrun]

end Checked

/-- A file that is served is downloaded to a free name. -/
theorem downloadEntry_exact {dir : Loc} {name content : Bytes} (hname : SafeName name)
    (hchunk : opts.chunkSize ≠ 0)
    (hprogress : ∀ total, opts.cancelled "try_download" total = none)
    (hserves : ∀ state, (server.session remote state).1.Serves content)
    (hleads : Leads run.world.1 path.absolute path.entry.comps dir)
    (hfree : run.world.1.tree.get (dir ++ [name]) = none) :
    ∃ after, downloadEntry server.beside posixDisk opts remote (path.join (.ofBytes name)) entries
        run = (.ok content.length, after) ∧
      Adds dir name .file run.world.1 after.world.1 ∧
      (after.world.1.inode run.world.1.inodes.length).data = content := by
  obtain ⟨hnew, -, hopen, hroom⟩ := localFile_free hleads hname.proper hfree
  obtain ⟨file, hdownload, hcontent⟩ :=
    tryDownload_serves (hserves run.world.2) hchunk hprogress hnew hopen hroom
  obtain ⟨hadds, hdata⟩ := storeFile_free hleads hname.proper hfree hcontent
  refine ⟨{ world := (run.world.1.storeFile ⟨path.absolute, path.entry.comps ++ [name]⟩ file,
              (server.session remote run.world.2).2)
            writes := run.writes ++ [{ kind := .download, entries
                                       path := ⟨path.absolute, path.entry.comps ++ [name]⟩ }] },
    ?_, hadds, hdata⟩
  rw [join_ofBytes hname, downloadEntry, bind_of_eq (record_apply _ _),
    bind_of_eq (call_session _ _ _), bind_of_eq (call_localFile _ _)]
  dsimp only
  rw [hdownload, bind_of_eq (call_storeFile _ _ _)]
  rfl

end Entry

/-! ### Whole directories -/

/-- Under the names of the entries the directory holds the same objects as the tree, and
their inodes exist. -/
structure Holds (fs : FileSystem) (dir : Loc) (entries : RemoteEntries) : Prop where
  object : ∀ first ∈ entries.names, ∀ below,
    fs.objectAt (dir ++ first :: below) = entries.lookup first below
  inode : ∀ first ∈ entries.names, ∀ below ino,
    fs.tree.get (dir ++ first :: below) = some (.file ino) → ino < fs.inodes.length

theorem Holds.grows {fs after : FileSystem} {dir : Loc} {names : List Name}
    {entries : RemoteEntries} (h : Holds fs dir entries) (hgrows : Grows dir names fs after)
    (hapart : ∀ first ∈ entries.names, first ∉ names) : Holds after dir entries where
  object := by
    intro first hfirst below
    rw [hgrows.objectAt_of_notMem (hapart first hfirst) below (h.inode first hfirst below)]
    exact h.object first hfirst below
  inode := by
    intro first hfirst below ino hget
    rw [hgrows.get_of_notMem (hapart first hfirst) below] at hget
    exact (h.inode first hfirst below ino hget).trans_le hgrows.count

/-- One entry, and the others. -/
theorem Holds.cons {fs : FileSystem} {dir : Loc} {name : Bytes} {entries rest : RemoteEntries}
    (hrest : Holds fs dir rest) (hnames : entries.names = name :: rest.names)
    (hlookup : ∀ first ≠ name, ∀ below, entries.lookup first below = rest.lookup first below)
    (hobject : ∀ below, fs.objectAt (dir ++ name :: below) = entries.lookup name below)
    (hinode : ∀ below ino, fs.tree.get (dir ++ name :: below) = some (.file ino) →
      ino < fs.inodes.length) : Holds fs dir entries where
  object := by
    intro first hfirst below
    by_cases hsame : first = name
    · rw [hsame]
      exact hobject below
    · rw [hlookup first hsame below]
      rw [hnames, List.mem_cons] at hfirst
      exact hrest.object first (hfirst.resolve_left hsame) below
  inode := by
    intro first hfirst below ino hget
    by_cases hsame : first = name
    · rw [hsame] at hget
      exact hinode below ino hget
    · rw [hnames, List.mem_cons] at hfirst
      exact hrest.inode first (hfirst.resolve_left hsame) below ino hget

/-- The counters after the entries of a directory. -/
def TreeStats.after (stats : TreeStats) (entries : RemoteEntries) : TreeStats where
  files := stats.files + entries.kept.files
  directories := stats.directories + entries.kept.directories
  bytes := stats.bytes + entries.kept.bytes
  skipped := stats.skipped + entries.skipped

theorem TreeStats.skip_after_refused {name : Bytes} (hname : isSafeEntryName name = false)
    (stats : TreeStats) (content : Bytes) (entries rest : RemoteEntries) :
    stats.skip.after rest = stats.after (.file name content rest) ∧
      stats.skip.after rest = stats.after (.directory name entries rest) := by
  simp only [TreeStats.after, TreeStats.skip, RemoteEntries.kept, RemoteEntries.skipped, hname]
  simp only [Bool.false_eq_true, if_false, Nat.add_assoc, and_self]

theorem TreeStats.skip_after_other (stats : TreeStats) (name : Bytes) (type : OtherType)
    (rest : RemoteEntries) : stats.skip.after rest = stats.after (.other name type rest) := by
  simp only [TreeStats.after, TreeStats.skip, RemoteEntries.kept, RemoteEntries.skipped,
    Nat.add_assoc]

theorem TreeStats.file_after {name : Bytes} (hname : isSafeEntryName name = true)
    (stats : TreeStats) (content : Bytes) (rest : RemoteEntries) :
    ({ stats with files := stats.files + 1
                  bytes := stats.bytes + content.length } : TreeStats).after rest =
      stats.after (.file name content rest) := by
  simp only [TreeStats.after, RemoteEntries.kept, RemoteEntries.skipped, hname, if_true,
    RemoteEntries.files, RemoteEntries.directories, RemoteEntries.bytes, Nat.add_assoc,
    Nat.zero_add]

theorem TreeStats.directory_after {name : Bytes} (hname : isSafeEntryName name = true)
    (stats : TreeStats) (entries rest : RemoteEntries) :
    ({ files := stats.files + (({} : TreeStats).after entries).files
       directories := stats.directories + (1 + (({} : TreeStats).after entries).directories)
       bytes := stats.bytes + (({} : TreeStats).after entries).bytes
       skipped := stats.skipped + (({} : TreeStats).after entries).skipped } :
        TreeStats).after rest = stats.after (.directory name entries rest) := by
  simp only [TreeStats.after, RemoteEntries.kept, RemoteEntries.skipped, hname, if_true,
    RemoteEntries.files, RemoteEntries.directories, RemoteEntries.bytes, Nat.add_assoc,
    Nat.zero_add]

/-- What the loop does over a listing of the entries, if it may call as deep as they go and
the names it copies to are free. -/
def LoopExact (server : TreeServer ω) (opts : TransferOptions) (entries : RemoteEntries) : Prop :=
  ∀ (depth : ℕ) (remote : RemotePath) (path : Path) (through listing : List Attributes)
    (stats : TreeStats) (run : TreeRun (FileSystem × ω)) (dir : Loc),
    entries.depth ≤ depth →
    listing.map (fun entry ↦ (entry.name, entry.type)) = entries.listed →
    entries.Distinct → server.Serves remote entries →
    ¬ (path.absolute = false ∧ path.entry.comps = []) →
    Leads run.world.1 path.absolute path.entry.comps dir →
    (∀ name ∈ entries.kept.names, run.world.1.tree.get (dir ++ [name]) = none) →
    ∃ after, downloadEntries server.beside posixDisk opts
        (tryDownloadTree server.beside posixDisk opts depth) remote path through listing stats run =
          (some (.ok (stats.after entries)), after) ∧
      Grows dir entries.kept.names run.world.1 after.world.1 ∧
      Holds after.world.1 dir entries.kept

/-- A directory that is served is downloaded to a vacant path. -/
theorem LoopExact.tree {server : TreeServer ω} {opts : TransferOptions} {entries : RemoteEntries}
    (h : LoopExact server opts entries) {depth : ℕ} (hdepth : entries.depth < depth)
    {remote : RemotePath} {path : Path} (through : List Attributes)
    (run : TreeRun (FileSystem × ω)) {upper rest : List Name} {dir : Loc}
    (hvacant : Vacant run.world.1 path upper rest dir) (hdistinct : entries.Distinct)
    (hlists : ∀ state, (server.listing remote state).1.Lists entries)
    (hserves : server.Serves remote entries) :
    ∃ middle after, tryDownloadTree server.beside posixDisk opts depth remote path through run =
        (some (.ok (({} : TreeStats).after entries)), after) ∧
      Leads middle path.absolute path.entry.comps (dir ++ rest) ∧
      Grows dir (rest.take 1) run.world.1 middle ∧
      (∀ name, middle.tree.get (dir ++ rest ++ [name]) = none) ∧
      Grows (dir ++ rest) entries.kept.names middle after.world.1 ∧
      Holds after.world.1 (dir ++ rest) entries.kept := by
  obtain ⟨depth, rfl⟩ := Nat.exists_eq_add_of_lt hdepth
  obtain ⟨middle, hcreate, hleads, hgrows, hempty⟩ := hvacant.createDirectories
  obtain ⟨listing, hlist, hlisting⟩ := (hlists run.world.2).tryList
  let listed : TreeRun (FileSystem × ω) :=
    { world := (middle, (server.listing remote run.world.2).2)
      writes := run.writes ++
        [{ kind := .createDirectories, path := path, entries := through }] }
  obtain ⟨after, hloop, hafter, hholds⟩ := h (entries.depth + depth) remote path through listing {}
    listed (dir ++ rest) (Nat.le_add_right _ _) hlisting hdistinct hserves hvacant.nonempty hleads
    fun name _ ↦ hempty name
  refine ⟨middle, after, ?_, hleads, hgrows, hempty, hafter, hholds⟩
  rw [tryDownloadTree, bind_of_eq (record_apply _ _), bind_of_eq (call_createDirectories _ _),
    bind_of_eq (call_listing _ _ _)]
  dsimp only
  rw [hlist, hcreate]
  exact hloop

theorem listing_cons {listing : List Attributes} {name : Bytes} {type : FileType}
    {listed : List (Bytes × FileType)}
    (h : listing.map (fun entry ↦ (entry.name, entry.type)) = (name, type) :: listed) :
    ∃ entry rest, listing = entry :: rest ∧ entry.name = name ∧ entry.type = type ∧
      rest.map (fun entry ↦ (entry.name, entry.type)) = listed := by
  obtain ⟨entry, rest, rfl, hentry, hrest⟩ := List.map_eq_cons_iff.mp h
  obtain ⟨hname, htype⟩ := Prod.mk.inj hentry
  exact ⟨entry, rest, rfl, hname, htype, hrest⟩

section Loop

variable {server : TreeServer ω} {opts : TransferOptions} {name : Bytes} {rest : RemoteEntries}

/-- After one entry the others are downloaded, and what lies under its name stays. -/
theorem LoopExact.next (h : LoopExact server opts rest) {entries : RemoteEntries} {depth : ℕ}
    (hdepth : rest.depth ≤ depth) {remote : RemotePath} {path : Path}
    {through listing : List Attributes} {stats : TreeStats} {run middle : TreeRun (FileSystem × ω)}
    {dir : Loc} (hlisting : listing.map (fun entry ↦ (entry.name, entry.type)) = rest.listed)
    (hdistinct : rest.Distinct) (hserves : server.Serves remote rest)
    (hne : ¬ (path.absolute = false ∧ path.entry.comps = []))
    (hleads : Leads run.world.1 path.absolute path.entry.comps dir)
    (hfree : ∀ other ∈ rest.kept.names, run.world.1.tree.get (dir ++ [other]) = none)
    (hgrows : Grows dir [name] run.world.1 middle.world.1) (hname : name ∉ rest.kept.names)
    (hnames : entries.names = name :: rest.kept.names)
    (hlookup : ∀ first ≠ name, ∀ below, entries.lookup first below = rest.kept.lookup first below)
    (hobject : ∀ below, middle.world.1.objectAt (dir ++ name :: below) = entries.lookup name below)
    (hinode : ∀ below ino, middle.world.1.tree.get (dir ++ name :: below) = some (.file ino) →
      ino < middle.world.1.inodes.length) :
    ∃ after, downloadEntries server.beside posixDisk opts
        (tryDownloadTree server.beside posixDisk opts depth) remote path through listing stats
          middle = (some (.ok (stats.after rest)), after) ∧
      Grows dir entries.names run.world.1 after.world.1 ∧ Holds after.world.1 dir entries := by
  have hstillFree : ∀ other ∈ rest.kept.names, middle.world.1.tree.get (dir ++ [other]) = none := by
    intro other hother
    have hdiffers : other ∉ [name] := by
      rw [List.mem_singleton]
      exact ne_of_mem_of_not_mem hother hname
    rw [hgrows.get_of_notMem hdiffers]
    exact hfree other hother
  obtain ⟨after, hloop, hafter, hholds⟩ := h depth remote path through listing stats middle dir
    hdepth hlisting hdistinct hserves hne (hleads.grows hgrows) hstillFree
  refine ⟨after, hloop, ?_, ?_⟩
  · rw [hnames]
    exact (hgrows.mono (by simp)).trans (hafter.mono (List.subset_cons_self _ _))
  · refine hholds.cons hnames hlookup (fun below ↦ ?_) fun below ino hget ↦ ?_
    · rw [hafter.objectAt_of_notMem hname below (hinode below)]
      exact hobject below
    · rw [hafter.get_of_notMem hname below] at hget
      exact (hinode below ino hget).trans_le hafter.count

theorem loopExact_file {content : Bytes} (hchunk : opts.chunkSize ≠ 0)
    (hprogress : ∀ total, opts.cancelled "try_download" total = none)
    (ih : LoopExact server opts rest) : LoopExact server opts (.file name content rest) := by
  intro depth remote path through listing stats run dir hdepth hlisting hdistinct hserves hne
    hleads hfree
  obtain ⟨entry, others, rfl, rfl, htype, hothers⟩ := listing_cons hlisting
  by_cases hsafe : isSafeEntryName entry.name = true
  · have hkept : (RemoteEntries.file entry.name content rest).kept =
        .file entry.name content rest.kept := if_pos hsafe
    rw [hkept] at hfree ⊢
    have hname := isSafeEntryName_iff.mp hsafe
    have hnone := hfree entry.name List.mem_cons_self
    have hnew : entry.name ∉ rest.kept.names := fun h ↦ hdistinct.1 (rest.names_kept_subset h)
    obtain ⟨middle, hentry, hadds, hdata⟩ := downloadEntry_exact hname hchunk hprogress
      (hserves.1 hsafe) hleads hnone
    rw [downloadEntries_regular hsafe (staysBelow_free hleads hne hname hnone) htype hentry,
      ← TreeStats.file_after hsafe]
    refine ih.next hdepth hothers hdistinct.2 hserves.2 hne hleads
      (fun other hother ↦ hfree other (List.mem_cons_of_mem _ hother)) hadds.grows hnew rfl
      (fun first hfirst below ↦ ?_) (fun below ↦ ?_) fun below ino hget ↦ hadds.inode_lt hnone hget
    · rw [RemoteEntries.lookup, if_neg hfirst]
    · rw [RemoteEntries.lookup, if_pos rfl, hadds.objectAt_file hnone, hdata]
  · rw [Bool.not_eq_true] at hsafe
    have hkept : (RemoteEntries.file entry.name content rest).kept = rest.kept :=
      if_neg (by rw [hsafe]; exact Bool.false_ne_true)
    rw [hkept] at hfree ⊢
    rw [downloadEntries_refused hsafe,
      ← (TreeStats.skip_after_refused hsafe stats content .nil rest).1]
    exact ih depth remote path through others stats.skip run dir hdepth hothers hdistinct.2
      hserves.2 hne hleads hfree

/-- A directory that was empty has nothing besides the entries. -/
theorem Holds.whole {before after : FileSystem} {dir : Loc} {entries : RemoteEntries}
    (h : Holds after dir entries) (hgrows : Grows dir entries.names before after)
    (hempty : ∀ name, before.tree.get (dir ++ [name]) = none) (first : Bytes) (below : List Bytes) :
    after.objectAt (dir ++ first :: below) = entries.lookup first below ∧
      ∀ ino, after.tree.get (dir ++ first :: below) = some (.file ino) →
        ino < after.inodes.length := by
  by_cases hfirst : first ∈ entries.names
  · exact ⟨h.object first hfirst below, h.inode first hfirst below⟩
  · have hnone : after.tree.get (dir ++ first :: below) = none := by
      rw [hgrows.get_of_notMem hfirst below, List.append_cons]
      by_cases hbelow : below = []
      · rw [hbelow, List.append_nil]
        exact hempty first
      · exact FileTree.get_append_eq_none (by rw [FileTree.isDir, hempty]; rfl) hbelow
    rw [RemoteEntries.lookup_of_notMem hfirst, FileSystem.objectAt, hnone]
    exact ⟨rfl, fun ino hget ↦ by cases hget⟩

theorem objectAt_of_isDir {fs : FileSystem} {loc : Loc} (h : fs.tree.isDir loc = true) :
    fs.objectAt loc = some .directory := by
  obtain ⟨ino, hget⟩ := FileTree.isDir_iff.mp h
  rw [FileSystem.objectAt, hget]

/-- The path of an entry is vacant while its name is free. -/
theorem vacant_child {fs : FileSystem} {path : Path} {dir : Loc}
    (hleads : Leads fs path.absolute path.entry.comps dir) (hname : SafeName name)
    (hfree : fs.tree.get (dir ++ [name]) = none) :
    Vacant fs (path.join (.ofBytes name)) path.entry.comps [name] dir := by
  rw [join_ofBytes hname]
  refine ⟨?_, ?_, hleads, fun other hother ↦ ?_, fun other hother ↦ ?_⟩
  · rw [entry_concat hname.proper]
    simp
  · rw [entry_concat hname.proper]
  · rw [List.mem_singleton.mp hother]
    exact hname.proper
  · rw [hother name rfl]
    exact hfree

/-- A directory that was made and filled, as an entry of the one above. -/
theorem Holds.as_entry {before after : FileSystem} {dir : Loc} {entries : RemoteEntries}
    (h : Holds after (dir ++ [name]) entries)
    (hgrows : Grows (dir ++ [name]) entries.names before after)
    (hempty : ∀ other, before.tree.get (dir ++ [name] ++ [other]) = none)
    (hmade : before.tree.isDir (dir ++ [name]) = true) (rest : RemoteEntries) (below : Loc) :
    after.objectAt (dir ++ name :: below) =
        (RemoteEntries.directory name entries rest).lookup name below ∧
      ∀ ino, after.tree.get (dir ++ name :: below) = some (.file ino) →
        ino < after.inodes.length := by
  have hdir := objectAt_of_isDir (hgrows.isDir hmade)
  cases below with
  | nil =>
    rw [RemoteEntries.lookup, if_pos rfl]
    refine ⟨hdir, fun ino hget ↦ ?_⟩
    rw [FileSystem.objectAt, hget] at hdir
    cases hdir
  | cons next below =>
    rw [RemoteEntries.lookup, if_pos rfl, List.append_cons]
    exact h.whole hgrows hempty next below

theorem loopExact_directory {entries : RemoteEntries} (ihEntries : LoopExact server opts entries)
    (ih : LoopExact server opts rest) : LoopExact server opts (.directory name entries rest) := by
  intro depth remote path through listing stats run dir hdepth hlisting hdistinct hserves hne
    hleads hfree
  obtain ⟨entry, others, rfl, rfl, htype, hothers⟩ := listing_cons hlisting
  rw [RemoteEntries.depth, Nat.max_le] at hdepth
  by_cases hsafe : isSafeEntryName entry.name = true
  · have hkept : (RemoteEntries.directory entry.name entries rest).kept =
        .directory entry.name entries.kept rest.kept := if_pos hsafe
    rw [hkept] at hfree ⊢
    have hname := isSafeEntryName_iff.mp hsafe
    have hnone := hfree entry.name List.mem_cons_self
    have hnew : entry.name ∉ rest.kept.names := fun h ↦ hdistinct.1 (rest.names_kept_subset h)
    obtain ⟨hlists, hbelow⟩ := hserves.1 hsafe
    obtain ⟨made, middle, htree, hmade, hgrowsMade, hempty, hgrowsMiddle, hmiddle⟩ :=
      ihEntries.tree hdepth.1 (through ++ [entry]) run (vacant_child hleads hname hnone)
        hdistinct.2.1 hlists hbelow
    have hfilled := hmiddle.as_entry hgrowsMiddle hempty hmade.isDir rest.kept
    rw [downloadEntries_directory hsafe (staysBelow_free hleads hne hname hnone) htype htree,
      ← TreeStats.directory_after hsafe]
    refine ih.next hdepth.2 hothers hdistinct.2.2 hserves.2 hne hleads
      (fun other hother ↦ hfree other (List.mem_cons_of_mem _ hother))
      (hgrowsMade.trans hgrowsMiddle.below) hnew rfl (fun first hfirst below ↦ ?_)
      (fun below ↦ (hfilled below).1) fun below ↦ (hfilled below).2
    exact RemoteEntries.lookup_directory_of_ne hfirst _ _ _
  · rw [Bool.not_eq_true] at hsafe
    have hkept : (RemoteEntries.directory entry.name entries rest).kept = rest.kept :=
      if_neg (by rw [hsafe]; exact Bool.false_ne_true)
    rw [hkept] at hfree ⊢
    rw [downloadEntries_refused hsafe,
      ← (TreeStats.skip_after_refused hsafe stats [] entries rest).2]
    exact ih depth remote path through others stats.skip run dir hdepth.2 hothers hdistinct.2.2
      hserves.2 hne hleads hfree

theorem loopExact_other {type : OtherType} (ih : LoopExact server opts rest) :
    LoopExact server opts (.other name type rest) := by
  intro depth remote path through listing stats run dir hdepth hlisting hdistinct hserves hne
    hleads hfree
  obtain ⟨entry, others, rfl, rfl, htype, hothers⟩ := listing_cons hlisting
  rw [downloadEntries_other (by rw [htype]; exact type.property.1)
    (by rw [htype]; exact type.property.2), ← TreeStats.skip_after_other stats entry.name type rest]
  exact ih depth remote path through others stats.skip run dir hdepth hothers hdistinct.2 hserves
    hne hleads hfree

/-- Assumes: there is a buffer, and nobody cancels. -/
theorem loopExact (hchunk : opts.chunkSize ≠ 0)
    (hprogress : ∀ total, opts.cancelled "try_download" total = none) (entries : RemoteEntries) :
    LoopExact server opts entries := by
  induction entries with
  | nil =>
    intro depth remote path through listing stats run dir _ hlisting _ _ _ _ _
    rw [List.map_eq_nil_iff.mp hlisting]
    refine ⟨run, rfl, Grows.refl _ _ _, ?_⟩
    exact ⟨fun _ h ↦ absurd h List.not_mem_nil, fun _ h ↦ absurd h List.not_mem_nil⟩
  | file name content rest ih => exact loopExact_file hchunk hprogress ih
  | directory name entries rest ihEntries ih => exact loopExact_directory ihEntries ih
  | other name type rest ih => exact loopExact_other ih

end Loop

/-- A finite tree that is served honestly is downloaded to an empty or missing destination:
the call succeeds, the destination holds the directories and regular files with safe names
and nothing else, and the counters are exact.
Assumes: there is a buffer, nobody cancels, and the model may call as deep as the tree
goes. -/
theorem downloadTree_exact (server : TreeServer ω) (entries : RemoteEntries)
    (hdistinct : entries.Distinct) (remote : RemotePath)
    (hlists : ∀ state, (server.listing remote state).1.Lists entries)
    (hserves : server.Serves remote entries) (opts : TransferOptions)
    (hchunk : 1 ≤ opts.chunkSize)
    (hprogress : ∀ total, opts.cancelled "try_download" total = none) (fs : FileSystem)
    (path : Path) {upper rest : List Name} {dir : Loc} (hvacant : Vacant fs path upper rest dir)
    (state : ω) (depth : ℕ) (hdepth : entries.depth < depth) :
    ∃ stats after loc, tryDownloadTree server.beside posixDisk opts depth remote path []
        { world := (fs, state) } = (some (.ok stats), after) ∧
      after.world.1.resolve true path = .found loc ∧
      after.world.1.objectAt loc = some .directory ∧
      (∀ first below, after.world.1.objectAt (loc ++ first :: below) =
        entries.kept.lookup first below) ∧
      stats.files = entries.kept.files ∧ stats.directories = entries.kept.directories ∧
      stats.bytes = entries.kept.bytes ∧
      stats.files + stats.directories + stats.skipped = entries.visited := by
  obtain ⟨middle, after, hrun, hleads, -, hempty, hgrows, hholds⟩ :=
    (loopExact (Nat.ne_of_gt hchunk) hprogress entries).tree hdepth [] { world := (fs, state) }
      hvacant hdistinct hlists hserves
  refine ⟨_, after, dir ++ rest, hrun, ?_, ?_, fun first below ↦ ?_, ?_, ?_, ?_, ?_⟩
  · exact (hleads.grows hgrows).resolve_path hvacant.nonempty
  · exact objectAt_of_isDir (hgrows.isDir hleads.isDir)
  · exact (hholds.whole hgrows hempty first below).1
  · exact Nat.zero_add _
  · exact Nat.zero_add _
  · exact Nat.zero_add _
  · rw [← entries.counts_visited]
    simp only [TreeStats.after, Nat.zero_add]

/-- A directory with a file of three bytes and an empty directory, a link and a file whose
name has a slash. -/
def reportEntries : RemoteEntries :=
  .directory (ascii "sub")
    (.file (ascii "data") [1, 2, 3] (.directory (ascii "void") .nil .nil))
    (.other (ascii "link") ⟨.symlink, by decide⟩ (.file (ascii "../evil") [6] .nil))

/-- What the server of these entries answers to the reads of a directory. -/
def reportOutcomes (path : RemotePath) : List Readdir :=
  if path = ascii "/srv" then
    [.entry { name := some (ascii "."), type := typeDirectory },
      .entry { name := some (ascii "sub"), type := typeDirectory },
      .entry { name := some (ascii "link"), type := typeSymlink },
      .entry { name := some (ascii "../evil"), type := typeRegular }, .endOfDirectory]
  else if path = ascii "/srv/sub" then
    [.entry { name := some (ascii "data"), type := typeRegular },
      .entry { name := some (ascii "void"), type := typeDirectory }, .endOfDirectory]
  else [.endOfDirectory]

/-- It serves a file one byte at a time. -/
def reportServer : TreeServer Unit where
  listing path := pure { outcomes := reportOutcomes path }
  session _ := pure {
    content := some [1, 2, 3], maxLength_pos := maxLength_default_pos
    replies := [.bytes 1, .bytes 1] }

/-- The entries are downloaded to a directory that is missing with its parent. -/
theorem downloadTree_exact_report :
    ∃ stats after loc, tryDownloadTree reportServer.beside posixDisk {} 3 (ascii "/srv")
        (.ofBytes (ascii "/tmp/out")) [] { world := (emptyDisk, ()) } =
          (some (.ok stats), after) ∧
      after.world.1.resolve true (.ofBytes (ascii "/tmp/out")) = .found loc ∧
      after.world.1.objectAt loc = some .directory ∧
      (∀ first below, after.world.1.objectAt (loc ++ first :: below) =
        reportEntries.kept.lookup first below) ∧
      stats.files = 1 ∧ stats.directories = 2 ∧ stats.bytes = 3 ∧
      stats.files + stats.directories + stats.skipped = 5 := by
  have hvacant : Vacant emptyDisk (.ofBytes (ascii "/tmp/out")) []
      [ascii "tmp", ascii "out"] [] := by
    refine ⟨by decide +kernel, by decide +kernel, ⟨by decide +kernel, rfl, by decide +kernel⟩,
      by decide +kernel, fun name hname ↦ ?_⟩
    rw [hname (ascii "tmp") rfl]
    decide +kernel
  have hlists (path : RemotePath) {entries : RemoteEntries}
      (hcomplete : ListingSession.failureStatus (reportOutcomes path) = none)
      (hentries : ((ListingSession.entriesBefore (reportOutcomes path)).filter fun entry ↦
        !ListingSession.isDotEntry entry).map (fun entry ↦ (entry.name, entry.type)) =
          entries.listed) (state : Unit) : (reportServer.listing path state).1.Lists entries :=
    ⟨rfl, rfl, hcomplete, hentries⟩
  refine downloadTree_exact reportServer reportEntries ?_ (ascii "/srv")
    (hlists _ (by decide +kernel) (by decide +kernel)) ?_ {} (by decide) (fun _ ↦ rfl) emptyDisk _
    hvacant () 3 (by decide +kernel)
  · refine ⟨by decide +kernel, ⟨by decide +kernel, ?_⟩, by decide +kernel, by decide +kernel,
      trivial⟩
    exact ⟨by decide +kernel, trivial, trivial⟩
  · refine ⟨fun _ ↦ ⟨hlists _ (by decide +kernel) (by decide +kernel), fun _ _ ↦ ?_, fun _ ↦ ?_,
      trivial⟩, fun hsafe ↦ ?_, trivial⟩
    · refine ⟨rfl, rfl, rfl, fun reply hreply ↦ ⟨1, ?_⟩⟩
      exact List.eq_of_mem_replicate (show reply ∈ List.replicate 2 (.bytes 1) from hreply)
    · exact ⟨hlists _ (by decide +kernel) (by decide +kernel), trivial⟩
    · exact absurd hsafe (by decide +kernel)

end LibSshpp.Sftp
