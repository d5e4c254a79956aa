import LibSshpp.Posix.CanonicalPath
import LibSshpp.Sftp.Directory
import LibSshpp.Sftp.Transfer

/-!
`sftp::try_download_tree`, which downloads a remote directory and recurses into the
directories it lists. The server answers every listing and every open as it likes, also
depending on what it was asked before; the local file system answers the calls the
function makes. What is kept of a run is every local path it hands to
`create_directories` or to `try_download`, with the entries it got there through.
-/

set_option autoImplicit false
set_option relaxedAutoImplicit false

namespace LibSshpp.Sftp

open Posix Program

/-- `RemotePath`. -/
abbrev RemotePath := Bytes

/-- `RemotePath::operator/`. -/
def RemotePath.join (path : RemotePath) (child : Bytes) : RemotePath :=
  if path ≠ [] ∧ path.getLast? ≠ some 0x2f ∧ child ≠ [] ∧ child.head? ≠ some 0x2f then
    path ++ 0x2f :: child
  else path ++ child

/-- `is_safe_entry_name`. -/
def isSafeEntryName (name : Bytes) : Bool :=
  if name = [] || name = ascii "." || name = ascii ".." then false
  else if name.contains 0x2f then false
  else if name.contains 0 then false
  else true

/-- The server, by its answers to an open directory and to an open file. -/
structure TreeServer (σ : Type) where
  listing : RemotePath → StateM σ ListingSession
  session : RemotePath → StateM σ SftpSession

/-- The local file system, by the calls made of it. -/
structure TreeDisk (σ : Type) where
  createDirectories : Path → StateM σ (Except Errno Unit)
  weaklyCanonical : Path → StateM σ (Except Errno Path)
  /-- the file a download finds -/
  localFile : Path → StateM σ LocalFile
  /-- the file a download leaves -/
  storeFile : Path → LocalFile → StateM σ Unit

inductive WriteKind
  | createDirectories
  | download
  deriving DecidableEq, Repr

/-- A local path that may be written, with the entries that led there from the top. -/
structure LocalWrite where
  kind : WriteKind
  path : Path
  entries : List Attributes
  deriving DecidableEq, Repr

/-- The world of a run, and the local paths it has written. -/
structure TreeRun (σ : Type) where
  world : σ
  writes : List LocalWrite := []

structure TreeStats where
  files : ℕ := 0
  directories : ℕ := 0
  bytes : ℕ := 0
  skipped : ℕ := 0
  deriving DecidableEq, Repr

def TreeStats.skip (stats : TreeStats) : TreeStats := { stats with skipped := stats.skipped + 1 }

section

variable {σ : Type}

/-- A call of the world. -/
def TreeRun.call {α : Type} (program : StateM σ α) : StateM (TreeRun σ) α := fun run ↦
  let (value, world) := program run.world
  (value, { run with world })

def TreeRun.record (write : LocalWrite) : StateM (TreeRun σ) Unit := fun run ↦
  ((), { run with writes := run.writes ++ [write] })

/-- `canon_child` was found and its text begins with the one of `canon_root`, which is empty
if that was not found. -/
def staysBelow (canonRoot canonChild : Except Errno Path) : Bool :=
  match canonRoot, canonChild with
  | _, .error _ => false
  | .error _, .ok _ => true
  | .ok root, .ok child => root.text.isPrefixOf child.text

variable (server : TreeServer σ) (disk : TreeDisk σ) (opts : TransferOptions)

/-- `sftp::try_download` of an entry. -/
def downloadEntry (remote : RemotePath) (localPath : Path) (entries : List Attributes) :
    StateM (TreeRun σ) (Result ℕ) := do
  TreeRun.record { kind := .download, path := localPath, entries }
  let sftp ← TreeRun.call (server.session remote)
  let destination ← TreeRun.call (disk.localFile localPath)
  let (result, after) := tryDownload sftp destination opts
  TreeRun.call (disk.storeFile localPath after)
  pure result

/-- The loop of `try_download_tree` over a listing, with what it calls for a directory.
There is no result if that has none. -/
def downloadEntries
    (recurse : RemotePath → Path → List Attributes →
      StateM (TreeRun σ) (Option (Result TreeStats)))
    (remote : RemotePath) (localPath : Path) (entries : List Attributes) :
    List Attributes → TreeStats → StateM (TreeRun σ) (Option (Result TreeStats))
  | [], stats => pure (some (.ok stats))
  | entry :: rest, stats => do
    if isSafeEntryName entry.name = false then
      downloadEntries recurse remote localPath entries rest stats.skip
    else
      let remoteChild := remote.join entry.name
      let localChild := localPath.join (.ofBytes entry.name)
      let canonRoot ← TreeRun.call (disk.weaklyCanonical localPath)
      let canonChild ← TreeRun.call (disk.weaklyCanonical localChild)
      if staysBelow canonRoot canonChild = false then
        downloadEntries recurse remote localPath entries rest stats.skip
      else if entry.type = .symlink then
        downloadEntries recurse remote localPath entries rest stats.skip
      else if entry.type = .directory then
        match ← recurse remoteChild localChild (entries ++ [entry]) with
        | none => pure none
        | some (.error info) => pure (some (.error info))
        | some (.ok sub) =>
          downloadEntries recurse remote localPath entries rest {
            files := stats.files + sub.files
            directories := stats.directories + (1 + sub.directories)
            bytes := stats.bytes + sub.bytes
            skipped := stats.skipped + sub.skipped }
      else if entry.type = .regular then
        match ← downloadEntry server disk opts remoteChild localChild (entries ++ [entry]) with
        | .error info => pure (some (.error info))
        | .ok n =>
          downloadEntries recurse remote localPath entries rest
            { stats with files := stats.files + 1, bytes := stats.bytes + n }
      else downloadEntries recurse remote localPath entries rest stats.skip

/-- `sftp::try_download_tree` for a directory that was reached through `entries`, as long as
it goes no deeper than `depth` calls; it stops without a result where it would. -/
def tryDownloadTree : ℕ → RemotePath → Path → List Attributes →
    StateM (TreeRun σ) (Option (Result TreeStats))
  | 0, _, _, _ => pure none
  | depth + 1, remote, localPath, entries => do
    TreeRun.record { kind := .createDirectories, path := localPath, entries }
    let _ ← TreeRun.call (disk.createDirectories localPath)
    let sftp ← TreeRun.call (server.listing remote)
    match sftp.tryList with
    | .error info => pure (some (.error info))
    | .ok listing =>
      downloadEntries server disk opts (tryDownloadTree depth) remote localPath entries listing {}

end

/-! ### Where a run writes -/

/-- A name that stands for one entry of the directory it is joined to. -/
structure SafeName (name : Bytes) : Prop where
  ne_nil : name ≠ []
  ne_dot : name ≠ ascii "."
  ne_dotdot : name ≠ ascii ".."
  no_slash : 0x2f ∉ name
  no_nul : 0 ∉ name

theorem isSafeEntryName_iff {name : Bytes} : isSafeEntryName name = true ↔ SafeName name := by
  unfold isSafeEntryName
  constructor
  · intro h
    split_ifs at h with hspecial hslash hnul
    simp only [Bool.or_eq_true, decide_eq_true_eq, not_or] at hspecial
    rw [List.contains_iff_mem] at hslash hnul
    exact ⟨hspecial.1.1, hspecial.1.2, hspecial.2, hslash, hnul⟩
  · intro h
    have hspecial : ¬ (name = [] || name = ascii "." || name = ascii "..") = true := by
      simp [h.ne_nil, h.ne_dot, h.ne_dotdot]
    rw [if_neg hspecial, if_neg (mt List.contains_iff_mem.mp h.no_slash),
      if_neg (mt List.contains_iff_mem.mp h.no_nul)]

/-- `path / n1 / … / nk`. -/
def childPath (path : Path) (names : List Bytes) : Path :=
  names.foldl (fun upper name ↦ upper.join (.ofBytes name)) path

theorem childPath_concat (path : Path) (names : List Bytes) (name : Bytes) :
    childPath path (names ++ [name]) = (childPath path names).join (.ofBytes name) := by
  rw [childPath, List.foldl_append]
  rfl

/-- The path is `top / n1 / … / nk` for the names of the entries, which are safe, and the
entries on the way are directories. -/
structure ReachedBy (top path : Path) (entries : List Attributes) : Prop where
  path : path = childPath top (entries.map (·.name))
  names : ∀ entry ∈ entries, SafeName entry.name
  directories : ∀ entry ∈ entries.dropLast, entry.type = .directory

/-- The entry that led to a write is a directory where one is created, and a regular file
where one is opened. -/
structure LocalWrite.Confined (top : Path) (write : LocalWrite) : Prop where
  reached : ReachedBy top write.path write.entries
  created : write.kind = .createDirectories → ∀ entry ∈ write.entries, entry.type = .directory
  opened : write.kind = .download →
    ∃ entry, write.entries.getLast? = some entry ∧ entry.type = .regular

theorem ReachedBy.child {top path : Path} {entries : List Attributes} {entry : Attributes}
    (h : ReachedBy top path entries) (hdirectories : ∀ entry ∈ entries, entry.type = .directory)
    (hname : isSafeEntryName entry.name = true) :
    ReachedBy top (path.join (.ofBytes entry.name)) (entries ++ [entry]) where
  path := by
    rw [h.path, List.map_append]
    exact (childPath_concat _ _ _).symm
  names := by
    intro other hother
    rcases List.mem_append.mp hother with hother | hother
    · exact h.names other hother
    · rw [List.mem_singleton.mp hother]
      exact isSafeEntryName_iff.mp hname
  directories := by
    rw [List.dropLast_concat]
    exact hdirectories

section Confined

variable {σ : Type} {server : TreeServer σ} {disk : TreeDisk σ} {opts : TransferOptions}

/-- The writes so far stay below the destination. -/
def WritesConfined (top : Path) (run : TreeRun σ) : Prop :=
  ∀ write ∈ run.writes, write.Confined top

theorem call_confined {α : Type} (top : Path) (program : StateM σ α) :
    Keeps (WritesConfined top) (TreeRun.call program) :=
  fun _ h ↦ h

theorem record_confined {top : Path} {write : LocalWrite} (hwrite : write.Confined top) :
    Keeps (WritesConfined top) (TreeRun.record write : StateM (TreeRun σ) Unit) := by
  intro run h other hother
  rcases List.mem_append.mp hother with hother | hother
  · exact h other hother
  · rw [List.mem_singleton.mp hother]
    exact hwrite

theorem downloadEntry_confined {top path : Path} {remote : RemotePath} {entries : List Attributes}
    {entry : Attributes} (hreached : ReachedBy top path (entries ++ [entry]))
    (hregular : entry.type = .regular) :
    Keeps (WritesConfined top)
      (downloadEntry server disk opts remote path (entries ++ [entry])) := by
  have hwrite : LocalWrite.Confined top
      { kind := .download, path := path, entries := entries ++ [entry] } :=
    ⟨hreached, fun hkind ↦ (nomatch hkind), fun _ ↦ ⟨entry, List.getLast?_concat, hregular⟩⟩
  refine Keeps.bind (record_confined hwrite) fun _ ↦ ?_
  refine Keeps.bind (call_confined top _) fun sftp ↦ ?_
  refine Keeps.bind (call_confined top _) fun destination ↦ ?_
  exact Keeps.bind (call_confined top _) fun _ ↦ Keeps.pure _

/-- The loop keeps its writes below the destination if the call for a directory does. -/
theorem downloadEntries_confined {top path : Path} {remote : RemotePath}
    {entries : List Attributes}
    {recurse : RemotePath → Path → List Attributes →
      StateM (TreeRun σ) (Option (Result TreeStats))}
    (hreached : ReachedBy top path entries)
    (hdirectories : ∀ entry ∈ entries, entry.type = .directory)
    (hrecurse : ∀ remote path entries, ReachedBy top path entries →
      (∀ entry ∈ entries, entry.type = .directory) →
        Keeps (WritesConfined top) (recurse remote path entries))
    (listing : List Attributes) (stats : TreeStats) :
    Keeps (WritesConfined top)
      (downloadEntries server disk opts recurse remote path entries listing stats) := by
  induction listing generalizing stats with
  | nil => exact Keeps.pure _
  | cons entry rest ih =>
    rw [downloadEntries]
    refine Keeps.ite (fun _ ↦ ih _) fun hsafe ↦ ?_
    have hchild := hreached.child hdirectories (Bool.not_eq_false _ ▸ hsafe)
    refine Keeps.bind (call_confined top _) fun canonRoot ↦ ?_
    refine Keeps.bind (call_confined top _) fun canonChild ↦ ?_
    refine Keeps.ite (fun _ ↦ ih _) fun _ ↦ ?_
    refine Keeps.ite (fun _ ↦ ih _) fun _ ↦ ?_
    refine Keeps.ite (fun hdirectory ↦ ?_) fun _ ↦ ?_
    · refine Keeps.bind (hrecurse _ _ _ hchild ?_) fun result ↦ ?_
      · intro other hother
        rcases List.mem_append.mp hother with hother | hother
        · exact hdirectories other hother
        · rw [List.mem_singleton.mp hother]
          exact hdirectory
      · match result with
        | none => exact Keeps.pure _
        | some (.error info) => exact Keeps.pure _
        | some (.ok sub) => exact ih _
    · refine Keeps.ite (fun hregular ↦ ?_) fun _ ↦ ih _
      refine Keeps.bind (downloadEntry_confined hchild hregular) fun result ↦ ?_
      match result with
      | .error info => exact Keeps.pure _
      | .ok n => exact ih _

theorem tryDownloadTree_confined {top : Path} (depth : ℕ) :
    ∀ (remote : RemotePath) (path : Path) (entries : List Attributes),
      ReachedBy top path entries → (∀ entry ∈ entries, entry.type = .directory) →
        Keeps (WritesConfined top)
          (tryDownloadTree server disk opts depth remote path entries) := by
  induction depth with
  | zero => exact fun _ _ _ _ _ ↦ Keeps.pure _
  | succ depth ih =>
    intro remote path entries hreached hdirectories
    have hwrite : LocalWrite.Confined top
        { kind := .createDirectories, path := path, entries := entries } :=
      ⟨hreached, fun _ ↦ hdirectories, fun hkind ↦ (nomatch hkind)⟩
    rw [tryDownloadTree]
    refine Keeps.bind (record_confined hwrite) fun _ ↦ ?_
    refine Keeps.bind (call_confined top _) fun _ ↦ ?_
    refine Keeps.bind (call_confined top _) fun sftp ↦ ?_
    cases sftp.tryList with
    | error info => exact Keeps.pure _
    | ok listing => exact downloadEntries_confined hreached hdirectories ih listing {}

/-- Whatever the server lists and the local file system answers, and however deep the run
goes, every local path that is given to `create_directories` or opened for writing is the
destination followed by safe names, each the name of an entry on the way; these entries are
directories, and the last one a regular file where a file is opened. -/
theorem downloadTree_confined (server : TreeServer σ) (disk : TreeDisk σ) (opts : TransferOptions)
    (depth : ℕ) (remote : RemotePath) (localPath : Path) (world : σ) :
    ∀ write ∈ (tryDownloadTree server disk opts depth remote localPath [] { world }).2.writes,
      write.Confined localPath := by
  have hreached : ReachedBy localPath localPath [] :=
    ⟨rfl, fun _ h ↦ absurd h List.not_mem_nil, fun _ h ↦ absurd h List.not_mem_nil⟩
  refine tryDownloadTree_confined depth remote localPath [] hreached
    (fun _ h ↦ absurd h List.not_mem_nil) _ ?_
  exact fun _ h ↦ absurd h List.not_mem_nil

end Confined

/-- A server whose top directory has a name with a slash, a link, a device and a directory;
every directory has a file of three bytes. -/
def hostileServer : TreeServer Unit where
  listing path := pure { outcomes :=
    (if path = ascii "/" then
      [.entry { name := some (ascii "../evil"), type := typeRegular },
        .entry { name := some (ascii "link"), type := typeSymlink },
        .entry { name := some (ascii "tty"), type := typeSpecial },
        .entry { name := some (ascii "sub"), type := typeDirectory }]
    else []) ++ [.entry { name := some (ascii "data"), type := typeRegular }, .endOfDirectory] }
  session _ := pure { content := some [1, 2, 3], maxLength_pos := maxLength_default_pos }

/-- A disk where every path is canonical and every file can be written. -/
def plainDisk : TreeDisk Unit where
  createDirectories _ := pure (.ok ())
  weaklyCanonical path := pure (.ok path)
  localFile _ := pure { path := "" }
  storeFile _ _ := pure ()

/-- The two directories and the two files are written, and nothing else. -/
theorem downloadTree_confined_hostile :
    (tryDownloadTree hostileServer plainDisk {} 3 (ascii "/") (.ofBytes (ascii "/tmp/d")) []
      { world := () }).2.writes.map (fun write ↦ (write.kind, write.path.text)) =
        [(.createDirectories, ascii "/tmp/d"), (.createDirectories, ascii "/tmp/d/sub"),
          (.download, ascii "/tmp/d/sub/data"), (.download, ascii "/tmp/d/data")] ∧
      ∀ write ∈ (tryDownloadTree hostileServer plainDisk {} 3 (ascii "/")
        (.ofBytes (ascii "/tmp/d")) [] { world := () }).2.writes,
          write.Confined (.ofBytes (ascii "/tmp/d")) := by
  constructor
  · decide +kernel
  · intro write hwrite
    exact downloadTree_confined hostileServer plainDisk {} 3 (ascii "/") _ () write hwrite

end LibSshpp.Sftp
