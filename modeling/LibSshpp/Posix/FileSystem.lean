import LibSshpp.Posix.PathWalk
import LibSshpp.Posix.Stat

/-!
The file system calls the library makes, as functions of the state of the file
system: a directory tree with a table of inodes. Each call either fails with an
error and changes nothing, or reports its result, the file system it leaves and the
locations of the objects it read, created, changed or inspected. Creating, removing
and renaming an entry also change the directory that holds it. The clock does not
tick here: no call changes a time stamp.
-/

set_option autoImplicit false
set_option relaxedAutoImplicit false

namespace LibSshpp.Posix

/-- What a file or directory is apart from its names. -/
structure Inode where
  attr : NodeAttr := {}
  data : Bytes := []
  deriving DecidableEq, Repr

/-- The file system as a process sees it. -/
structure FileSystem where
  tree : FileTree
  inodes : List Inode
  cwd : Loc := []
  umask : UInt32 := 0
  uid : UInt32 := 0
  gid : UInt32 := 0

inductive AccessMode
  | readOnly | writeOnly | readWrite
  deriving DecidableEq, Repr

/-- The flags of `open`. -/
structure OpenFlags where
  access : AccessMode
  creat : Bool := false
  trunc : Bool := false
  excl : Bool := false
  append : Bool := false
  deriving DecidableEq, Repr

/-- What a descriptor refers to: the object, where it was when it was opened, and
how it was opened. -/
structure OpenFile where
  loc : Loc
  ino : ℕ
  isDir : Bool
  flags : OpenFlags
  deriving DecidableEq, Repr

/-- A directory stream: where the directory was when it was opened, and the names
still to be read. -/
structure DirStream where
  loc : Loc
  pending : List Name
  deriving DecidableEq, Repr

/-- What a call that succeeds leaves behind. -/
structure Done (α : Type) where
  value : α
  fs : FileSystem
  touched : List Loc

/-- A pathname without its trailing separator. -/
def Path.entry (path : Path) : Path :=
  if path.comps.getLast? = some [] then { path with comps := path.comps.dropLast } else path

theorem entry_comps_cases (path : Path) :
    path.comps = path.entry.comps ∨ path.comps = path.entry.comps ++ [[]] := by
  by_cases hslash : path.comps.getLast? = some []
  · obtain ⟨names, hnames⟩ := List.getLast?_eq_some_iff.mp hslash
    refine .inr ?_
    rw [Path.entry, if_pos hslash, hnames, List.dropLast_concat]
  · exact .inl (by rw [Path.entry, if_neg hslash])

def Path.hasTrailingSlash (path : Path) : Bool := path.comps.getLast? = some []

/-- Whether the last component is the name of an entry, and not `.` or `..`. -/
def Path.endsInName (path : Path) : Prop := path.comps.getLast?.any (isEntryName ·)

instance (path : Path) : Decidable path.endsInName := inferInstanceAs (Decidable (_ = true))

namespace FileSystem

variable (fs : FileSystem)

def inode (ino : ℕ) : Inode := fs.inodes.getD ino {}

/-- The walk of a pathname. An empty one leads nowhere, and neither does a relative
one once the working directory is gone. Names and paths may be of any length here: that the
kernel refuses a pathname over its limits is a fault of the call. -/
def resolve (follow : Bool) (path : Path) : Walk :=
  if path.absolute = false ∧ (path.comps = [] ∨ fs.tree.isDir fs.cwd = false) then .failed .enoent
  else walk fs.tree follow maxSymlinks (if path.absolute then [] else fs.cwd) path.comps

/-- The object a pathname leads to. -/
def lookup (follow : Bool) (path : Path) : Except Errno Loc :=
  match fs.resolve follow path with
  | .found loc => .ok loc
  | .missing _ _ _ => .error .enoent
  | .failed error => .error error

/-- The free name a pathname stands for. -/
def lookupFree (path : Path) : Except Errno (Loc × Name) :=
  match fs.resolve false path with
  | .found _ => .error .eexist
  | .missing dir name [] => .ok (dir, name)
  | .missing _ _ _ => .error .enoent
  | .failed error => .error error

theorem resolve_sound (follow : Bool) (path : Path) : (fs.resolve follow path).Sound fs.tree := by
  unfold resolve
  split_ifs with hnowhere habsolute
  · trivial
  · exact walk_sound fs.tree.isDir_nil
  · refine walk_sound ?_
    by_contra hcwd
    exact hnowhere ⟨by simpa using habsolute, Or.inr (by simpa using hcwd)⟩

theorem resolve_absolute (follow : Bool) (comps : List Name) :
    fs.resolve follow ⟨true, comps⟩ = walk fs.tree follow maxSymlinks [] comps := by
  simp [resolve]

variable {fs} in
theorem lookup_eq_ok_iff {follow : Bool} {path : Path} {loc : Loc} :
    fs.lookup follow path = .ok loc ↔ fs.resolve follow path = .found loc := by
  unfold lookup
  rcases fs.resolve follow path with found | ⟨dir, name, rest⟩ | error <;> simp

variable {fs} in
theorem lookupFree_eq_ok_iff {path : Path} {dir : Loc} {name : Name} :
    fs.lookupFree path = .ok (dir, name) ↔ fs.resolve false path = .missing dir name [] := by
  unfold lookupFree
  rcases fs.resolve false path with found | ⟨dir', name', _ | ⟨comp, rest⟩⟩ | error <;> simp

/-! ### Inspecting objects -/

def statOf (attr : NodeAttr) (type : UInt32) (size : ℕ) : Stat where
  size := Int64.ofNat size
  uid := attr.uid
  gid := attr.gid
  mode := type ||| (attr.perm &&& modePermissions)
  atime := attr.atime
  mtime := attr.mtime

def statInode (isDir : Bool) (ino : ℕ) : Stat :=
  if isDir then statOf (fs.inode ino).attr modeDirectory 4096
  else statOf (fs.inode ino).attr modeRegular (fs.inode ino).data.length

def statNode : Node → Stat
  | .dir ino => fs.statInode true ino
  | .file ino => fs.statInode false ino
  | .symlink target attr => statOf attr modeSymlink target.val.length

/-- `stat` and `lstat`. -/
def statPath (follow : Bool) (path : Path) : Except Errno (Done Stat) :=
  match fs.lookup follow path with
  | .error error => .error error
  | .ok loc =>
    match fs.tree.get loc with
    | none => .error .enoent
    | some node => .ok ⟨fs.statNode node, fs, [loc]⟩

def stat (path : Path) : Except Errno (Done Stat) := fs.statPath true path

def lstat (path : Path) : Except Errno (Done Stat) := fs.statPath false path

def fstat (file : OpenFile) : Except Errno (Done Stat) :=
  .ok ⟨fs.statInode file.isDir file.ino, fs, [file.loc]⟩

/-- `readlink` into a buffer of the given size. -/
def readlink (path : Path) (size : ℕ) : Except Errno (Done Bytes) :=
  match fs.lookup false path with
  | .error error => .error error
  | .ok loc =>
    match fs.tree.get loc with
    | some (.symlink target _) => .ok ⟨target.val.take size, fs, [loc]⟩
    | _ => .error .einval

/-- `opendir`: the stream lists `.`, `..` and then the entries. -/
def opendir (path : Path) : Except Errno (Done DirStream) :=
  match fs.lookup true path with
  | .error error => .error error
  | .ok loc =>
    if fs.tree.isDir loc then .ok ⟨⟨loc, dot :: dotdot :: fs.tree.children loc⟩, fs, [loc]⟩
    else .error .enotdir

/-! ### Creating and opening -/

/-- The file system with a further inode. -/
def addInode (inode : Inode) : FileSystem := { fs with inodes := fs.inodes ++ [inode] }

/-- The permission bits of a new object. -/
def newAttr (mode : UInt32) : NodeAttr where
  perm := mode &&& ~~~fs.umask &&& modePermissions
  uid := fs.uid
  gid := fs.gid

/-- A new object with a new inode under a free name. -/
def create (dir : Loc) (name : Name) (node : ℕ → Node) (mode : UInt32) :
    Except Errno (Done ℕ) :=
  match fs.tree.putAt dir name (node fs.inodes.length) with
  | none => .error .einval
  | some tree =>
    .ok ⟨fs.inodes.length, { fs.addInode { attr := fs.newAttr mode } with tree := tree },
      [dir ++ [name], dir]⟩

/-- The file system with other contents of a file. -/
def setData (ino : ℕ) (data : Bytes) : FileSystem :=
  { fs with inodes := fs.inodes.set ino { attr := (fs.inode ino).attr, data := data } }

/-- `open` on an object that exists. -/
def openExisting (loc : Loc) (flags : OpenFlags) : Except Errno (Done OpenFile) :=
  if flags.creat ∧ flags.excl then .error .eexist
  else match fs.tree.get loc with
    | none => .error .enoent
    | some (.dir ino) =>
      if flags.access = .readOnly ∧ flags.creat = false ∧ flags.trunc = false then
        .ok ⟨⟨loc, ino, true, flags⟩, fs, [loc]⟩
      else .error .eisdir
    | some (.file ino) =>
      .ok ⟨⟨loc, ino, false, flags⟩, if flags.trunc then fs.setData ino [] else fs, [loc]⟩
    | some (.symlink _ _) => .error .eloop

/-- `open`. With O_CREAT and O_EXCL the last component is not followed. -/
def openFile (path : Path) (flags : OpenFlags) (mode : UInt32) : Except Errno (Done OpenFile) :=
  match fs.resolve (!(flags.creat && flags.excl)) path with
  | .found loc => fs.openExisting loc flags
  | .missing dir name rest =>
    if flags.creat ∧ rest = [] then
      match fs.create dir name .file mode with
      | .error error => .error error
      | .ok done =>
        .ok ⟨⟨dir ++ [name], done.value, false, flags⟩, done.fs, done.touched⟩
    else if flags.creat ∧ rest = [[]] then .error .eisdir
    else .error .enoent
  | .failed error => .error error

def mkdir (path : Path) (mode : UInt32) : Except Errno (Done Unit) :=
  match fs.lookupFree path.entry with
  | .error error => .error error
  | .ok (dir, name) =>
    match fs.create dir name .dir mode with
    | .error error => .error error
    | .ok done => .ok ⟨(), done.fs, done.touched⟩

def symlink (target : Bytes) (path : Path) : Except Errno (Done Unit) :=
  if target = [] then .error .enoent
  else if h : target ≠ [] ∧ 0 ∉ target ∧ target.length < 4096 then
    match fs.lookupFree path with
    | .error error => .error error
    | .ok (dir, name) =>
      match fs.tree.putAt dir name (.symlink ⟨target, h⟩ { fs.newAttr 0 with perm := 0o777 }) with
      | none => .error .einval
      | some tree => .ok ⟨(), { fs with tree := tree }, [dir ++ [name], dir]⟩
  else .error .enametoolong

/-! ### Removing and renaming -/

/-- Takes the entry at a location away. -/
def removeEntry (loc : Loc) : Except Errno (Done Unit) :=
  match fs.tree.removeLeaf loc with
  | none => .error .enotempty
  | some tree => .ok ⟨(), { fs with tree := tree }, [loc, loc.dropLast]⟩

def unlink (path : Path) : Except Errno (Done Unit) :=
  match fs.lookup false path.entry with
  | .error error => .error error
  | .ok loc =>
    if fs.tree.isDir loc then .error .eisdir
    else if path.hasTrailingSlash then .error .enotdir
    else fs.removeEntry loc

def rmdir (path : Path) : Except Errno (Done Unit) :=
  if ¬ path.entry.endsInName then .error .ebusy
  else match fs.lookup false path.entry with
    | .error error => .error error
    | .ok loc => if fs.tree.isDir loc then fs.removeEntry loc else .error .enotdir

/-- Moves the object at `source` to a free name. -/
def moveEntry (source dir : Loc) (name : Name) : Except Errno (Done Unit) :=
  match fs.tree.moveTo source dir name with
  | none => .error .einval
  | some tree =>
    .ok ⟨(), { fs with tree := tree }, [source, source.dropLast, dir ++ [name], dir]⟩

/-- Whether two locations are names of one object. -/
def sameObject (first second : Loc) : Prop :=
  first = second ∨ fs.tree.isDir first = false ∧ ∃ ino, fs.tree.get first = some (.file ino) ∧
    fs.tree.get second = some (.file ino)

instance (first second : Loc) : Decidable (fs.sameObject first second) :=
  decidable_of_iff
    (first = second ∨ fs.tree.isDir first = false ∧ (fs.tree.get first).any (fun node ↦
      match node with
      | .file ino => fs.tree.get second = some (.file ino)
      | _ => false) = true) (by
    unfold sameObject
    rcases fs.tree.get first with _ | (_ | ino | _) <;> simp)

/-- `rename` onto an entry that exists: it goes away first. -/
def renameOver (source dest : Loc) : Except Errno (Done Unit) :=
  if fs.sameObject source dest then .ok ⟨(), fs, [source, dest]⟩
  else if fs.tree.isDir source = true ∧ source <+: dest then .error .einval
  else if fs.tree.isDir source = true ∧ fs.tree.isDir dest = false then .error .enotdir
  else if fs.tree.isDir source = false ∧ fs.tree.isDir dest = true then .error .eisdir
  else match fs.removeEntry dest with
    | .error error => .error error
    | .ok done => done.fs.moveEntry source dest.dropLast (dest.getLastD [])

def rename (source dest : Path) : Except Errno (Done Unit) :=
  if ¬ (source.entry.endsInName ∧ dest.entry.endsInName) then .error .ebusy
  else match fs.lookup false source.entry with
    | .error error => .error error
    | .ok loc =>
      if fs.tree.isDir loc = false ∧ (source.hasTrailingSlash ∨ dest.hasTrailingSlash) then
        .error .enotdir
      else match fs.resolve false dest.entry with
        | .found destLoc => fs.renameOver loc destLoc
        | .missing dir name [] => fs.moveEntry loc dir name
        | .missing _ _ _ => .error .enoent
        | .failed error => .error error

/-- The tree without the entry at a path. -/
def withoutEntry (path : Path) : FileTree :=
  match fs.resolve false path.entry with
  | .found loc => (fs.tree.removeLeaf loc).getD fs.tree
  | _ => fs.tree

/-! ### Reading and writing -/

/-- `pread`. -/
def pread (file : OpenFile) (size : ℕ) (offset : Int64) : Except Errno (Done Bytes) :=
  if file.flags.access = .writeOnly then .error .ebadf
  else if offset < 0 then .error .einval
  else if file.isDir then .error .eisdir
  else .ok ⟨((fs.inode file.ino).data.drop offset.toNatClampNeg).take size, fs, [file.loc]⟩

/-- Contents with some bytes overwritten from an offset on; a gap is filled with
zeros. -/
def overwrite (contents : Bytes) (offset : ℕ) (data : Bytes) : Bytes :=
  if data = [] then contents
  else contents.take offset ++ List.replicate (offset - contents.length) 0 ++ data ++
    contents.drop (offset + data.length)

/-- `pwrite`. On Linux a descriptor opened with O_APPEND writes at the end. -/
def pwrite (file : OpenFile) (data : Bytes) (offset : Int64) : Except Errno (Done ℕ) :=
  if file.flags.access = .readOnly then .error .ebadf
  else if offset < 0 then .error .einval
  else
    let contents := (fs.inode file.ino).data
    let start := if file.flags.append then contents.length else offset.toNatClampNeg
    .ok ⟨data.length, fs.setData file.ino (overwrite contents start data), [file.loc]⟩

end FileSystem

end LibSshpp.Posix
