import LibSshpp.Posix.LexicalPaths
import LibSshpp.SftpServer.ServedDownloads
import LibSshpp.SftpServer.ServedUploads

/-!
An upload and a download of the same path. What comes back is what was sent, whether the file was
there before or not.
-/

set_option autoImplicit false
set_option relaxedAutoImplicit false

namespace LibSshpp.SftpServer

open Posix Sftp Program

variable {options : Options} {fs after : FileSystem} {root : Path} {path : Bytes} {dir loc : Loc}
  {name : Name} {ino : ℕ}

/-! ### The entry -/

/-- A path to a file in a directory resolves to the physical path of the file. -/
theorem NamesEntry.resolves_of_file (h : NamesEntry fs root path dir name)
    (hget : fs.tree.get (dir ++ [name]) = some (.file ino)) :
    Resolves fs root path ⟨true, dir ++ [name]⟩ := by
  obtain ⟨upper, hjoin, hfound⟩ := h.joined
  obtain ⟨rootLoc, hroot, hinside⟩ := h.inside
  obtain ⟨left, hwalk⟩ := resolve_from_dir hfound h.isDir (List.cons_ne_nil name [])
  rw [walk_file h.isName hget, if_pos rfl] at hwalk
  refine ⟨⟨true, rootLoc⟩, FileSystem.weaklyCanonical_of_found hroot, ?_, ?_⟩
  · rw [hjoin]
    exact FileSystem.weaklyCanonical_of_found hwalk
  · have hunder : rootLoc <+: dir ++ [name] := hinside.trans (List.prefix_append _ _)
    exact List.cons_prefix_cons.mpr ⟨rfl, hunder.map some⟩

/-- The path still names the entry once a file is new or changed. -/
theorem NamesEntry.kept (h : NamesEntry fs root path dir name) (honly : OnlyFile loc ino fs after) :
    NamesEntry after root path dir name := by
  obtain ⟨upper, hcomps, hfound⟩ := h.splits
  obtain ⟨rootLoc, hroot, hinside⟩ := h.inside
  exact ⟨h.isName, ⟨upper, hcomps, honly.resolve hfound⟩, ⟨rootLoc, honly.resolve hroot, hinside⟩,
    (honly.isDir dir).trans h.isDir⟩

/-- The physical path of an entry leads to it. -/
theorem resolve_entry_of_file (follow : Bool) (hname : isEntryName name)
    (hget : fs.tree.get (dir ++ [name]) = some (.file ino)) :
    fs.resolve follow ⟨true, dir ++ [name]⟩ = .found (dir ++ [name]) := by
  have hexists : fs.tree.get (dir ++ [name]) ≠ none := by
    rw [hget]
    exact Option.some_ne_none _
  have hdir : fs.tree.isDir ([] ++ dir) = true := FileTree.isDir_of_get_concat hexists
  rw [FileSystem.resolve_absolute, walk_physical dir hdir, List.nil_append, walk_file hname hget,
    if_pos rfl]

theorem resolve_entry_of_free (follow : Bool) (hname : isEntryName name)
    (hdir : fs.tree.isDir dir = true) (hfree : fs.tree.get (dir ++ [name]) = none) :
    fs.resolve follow ⟨true, dir ++ [name]⟩ = .missing dir name [] := by
  have hstart : fs.tree.isDir ([] ++ dir) = true := hdir
  rw [FileSystem.resolve_absolute, walk_physical dir hstart, List.nil_append,
    walk_absent hname hfree]

/-- What an upload may do at the entry: create a file, or replace one. -/
structure Uploads (fs : FileSystem) (opts : TransferOptions) (dir : Loc) (name : Name) : Prop where
  node : fs.tree.get (dir ++ [name]) = none ∨ ∃ ino, fs.tree.get (dir ++ [name]) = some (.file ino)
  free : opts.overwrite = .fail → fs.tree.get (dir ++ [name]) = none

/-- The kernel opens the entry for an upload. -/
theorem openFile_of_uploads {opts : TransferOptions} (h : Uploads fs opts dir name)
    (hname : ProperName name) (hdir : fs.tree.isDir dir = true) (mode : UInt32) :
    ∃ done, fs.openFile ⟨true, dir ++ [name]⟩ (openModeToPosix (uploadMode opts)) mode =
      .ok done := by
  have hentry := isEntryName_of_proper hname
  unfold FileSystem.openFile
  rcases hget : fs.tree.get (dir ++ [name]) with _ | node
  · obtain ⟨done, hcreate, -⟩ := @create_free fs dir name .file mode hdir hname hget
    rw [resolve_entry_of_free _ hentry hdir hget]
    simp only [hcreate]
    exact ⟨_, rfl⟩
  · obtain ⟨ino, hino⟩ := h.node.resolve_left (by rw [hget]; exact Option.some_ne_none _)
    have hexcl : ¬ ((openModeToPosix (uploadMode opts)).creat = true ∧
        (openModeToPosix (uploadMode opts)).excl = true) := by
      rintro ⟨-, hexcl⟩
      have hfail : opts.overwrite = .fail := by
        cases hoverwrite : opts.overwrite with
        | fail => rfl
        | replace => simp [openModeToPosix, uploadMode, hoverwrite] at hexcl
      cases hget.symm.trans (h.free hfail)
    rw [resolve_entry_of_file _ hentry hino]
    simp only [FileSystem.openExisting, if_neg hexcl, hino]
    exact ⟨_, rfl⟩

/-- The server opens the entry for an upload. -/
theorem opensTo_uploads {start : World} {opts : TransferOptions} {perms : UInt32}
    {path : RemotePath} (hwritable : options.readOnly = false)
    (hentry : NamesEntry start.fs options.root (cString path) dir name)
    (h : Uploads start.fs opts dir name) :
    ∃ done, OpensTo options (openRequest path (uploadMode opts) perms) start
      ⟨true, dir ++ [name]⟩ done := by
  obtain ⟨done, hopen⟩ := openFile_of_uploads h hentry.proper hentry.isDir
    ((openRequest path (uploadMode opts) perms).mode 0o644)
  refine ⟨done, fun hreadOnly ↦ Bool.noConfusion (hwritable.symm.trans hreadOnly), ?_, ?_⟩
  · rw [path_openRequest]
    rcases h.node with hfree | ⟨ino, hget⟩
    · exact hentry.resolves (hentry.dangles_of_free hfree)
    · exact hentry.resolves_of_file hget
  · rw [flags_openRequest]
    exact hopen

/-- The entry is a file after an upload. -/
theorem get_of_uploads {opts : TransferOptions} {data : Bytes} (h : Uploads fs opts dir name)
    (hname : isEntryName name) (hdir : fs.tree.isDir dir = true) (honly : OnlyFile loc ino fs after)
    (hfile : after.fileAt ⟨true, dir ++ [name]⟩ = some data) :
    ∃ other, after.tree.get (dir ++ [name]) = some (.file other) := by
  rcases h.node with hfree | ⟨other, hget⟩
  · rcases honly.tree (dir ++ [name]) with hsame | ⟨-, -, hmade⟩
    · obtain ⟨other, ⟨found, hfound, -⟩, -⟩ := FileSystem.isFile_of_fileAt hfile
      rw [resolve_entry_of_free true hname ((honly.isDir dir).trans hdir) (hsame.trans hfree)]
        at hfound
      cases hfound
    · exact ⟨ino, hmade⟩
  · exact ⟨other, honly.kept _ _ hget⟩

/-! ### There and back -/

/-- What is uploaded to a path comes back from it. The path names an entry of a directory under
the root, under which there is nothing or a file that may be replaced.
Assumes: no call fails on the server and a handle is free, the file is not too long for the
server, both local files can be opened, and nobody cancels. -/
theorem served_round_trip (table : HandleTable) (options : Options)
    (transfer : NativeAttributes → NativeAttributes) (hwire : WireVersion3 transfer)
    (session : ServedSession) (hsound : session.world.Sound table) (hopen : session.isOpen = true)
    (hfaults : session.world.faults = []) (slot : ℕ)
    (hslot : table.pick session.world.slots = some slot) (path : RemotePath) (dir : Loc)
    (name : Name) (hentry : NamesEntry session.world.fs options.root (cString path) dir name)
    (source : LocalFile) (content : Bytes) (hsource : source.canOpen = true)
    (hcontent : source.content = some content) (up : TransferOptions)
    (hnode : Uploads session.world.fs up dir name)
    (hadmits : Admits options (upTo source.ioLimit content).length) (hchunk : 0 < up.chunkSize)
    (hprogress : ∀ total, up.cancelled "try_upload" total = none) (destination : LocalFile)
    (hcan : destination.canOpen = true) (down : TransferOptions)
    (hready : down.overwrite = .fail → destination.content = none) (hchunk' : 0 < down.chunkSize)
    (hprogress' : ∀ total, down.cancelled "try_download" total = none) :
    ∃ middle received after,
      session.tryUpload table options source path up =
        (.ok (upTo source.ioLimit content).length, middle) ∧
      middle.tryDownload table options transfer path destination down =
        (.ok (upTo source.ioLimit content).length, received, after) ∧
      received.content = some (({ room := destination.ioLimit } : OutStream).write
        (upTo source.ioLimit content)).content ∧
      KeepsOpen session.world after.world := by
  obtain ⟨done, hopens⟩ := @opensTo_uploads options dir name session.world up
    (uploadPerms source up) path hadmits.writable hentry hnode
  obtain ⟨middle, hupload, hdeposited⟩ := tryUpload_succeeds hsound hopen hfaults hslot hopens
    hsource hcontent hadmits hchunk hprogress
  have hquiet : middle.world.faults = [] :=
    List.subset_nil.mp fun fault hfault ↦ hfaults ▸ hdeposited.keeps.faults fault hfault
  have hpick : table.pick middle.world.slots = some slot := hdeposited.keeps.slots ▸ hslot
  have hstill : middle.isOpen = true := by
    obtain ⟨world, hsame⟩ := hdeposited.same
    rw [hsame]
    exact hopen
  obtain ⟨ino, hget⟩ := get_of_uploads hnode hentry.isName hentry.isDir hdeposited.only
    hdeposited.content
  have hresolves := (hentry.kept hdeposited.only).resolves_of_file hget
  obtain ⟨file, hisFile, hdata⟩ := FileSystem.isFile_of_fileAt hdeposited.content
  have hsize : (middle.world.fs.inode file).data.length < 2 ^ 63 := hdata ▸ hadmits.offset
  obtain ⟨after, hdownload⟩ := tryDownload_of_isFile hwire hdeposited.sound hstill hquiet hpick
    hresolves hisFile hsize hcan hready hchunk' hprogress'
  have hrestored := restored_of_tryDownload options transfer hdeposited.sound path destination
    hchunk'
  rw [hdata] at hdownload
  rw [hdownload] at hrestored
  exact ⟨middle, _, after, hupload, hdownload, rfl, hdeposited.keeps.trans hrestored.keeps⟩

theorem namesEntry_new : NamesEntry singleFile srvServer.root (cString (ascii "g")) [ascii "srv"]
    (ascii "g") where
  isName := by decide
  splits := ⟨[], by decide +kernel, by decide +kernel⟩
  inside := ⟨[ascii "srv"], by decide +kernel, by decide +kernel⟩
  isDir := by decide +kernel

/-- Three bytes go to the new file `g` and come back. -/
theorem served_round_trip_new :
    ∃ middle received after,
      singleFileSession.tryUpload HandleTable.firstFree srvServer
          { path := "/tmp/g", content := some (ascii "hey") } (ascii "g") { overwrite := .fail } =
        (.ok (upTo none (ascii "hey")).length, middle) ∧
      middle.tryDownload HandleTable.firstFree srvServer transferVersion3 (ascii "g")
          { path := "/tmp/h" } { chunkSize := 2 } =
        (.ok (upTo none (ascii "hey")).length, received, after) ∧
      received.content = some (({ room := none } : OutStream).write
        (upTo none (ascii "hey"))).content ∧
      KeepsOpen singleFileSession.world after.world :=
  served_round_trip HandleTable.firstFree srvServer transferVersion3 wireVersion3_transferVersion3
    singleFileSession singleFileSession_sound rfl rfl 0 (by decide +kernel) (ascii "g")
    [ascii "srv"] (ascii "g") namesEntry_new { path := "/tmp/g", content := some (ascii "hey") }
    (ascii "hey") rfl rfl { overwrite := .fail }
    ⟨.inl (by decide +kernel), fun _ ↦ by decide +kernel⟩
    ⟨rfl, fun h ↦ absurd rfl h, by decide +kernel⟩ (by decide) (fun _ ↦ rfl) { path := "/tmp/h" }
    rfl { chunkSize := 2 } (fun h ↦ nomatch h) (by decide) fun _ ↦ rfl

end LibSshpp.SftpServer
