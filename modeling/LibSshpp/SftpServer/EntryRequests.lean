import LibSshpp.Posix.LinkEntries
import LibSshpp.SftpServer.HandleRelease

/-!
LSTAT, READLINK, REMOVE and RENAME on a directory entry that is a symbolic link. All
four go through `resolve_sftp_path`, which follows the last component of a path, so that they
act on the entry exactly if following it leads to nothing.
-/

set_option autoImplicit false
set_option relaxedAutoImplicit false

namespace LibSshpp.SftpServer

open Posix Sftp Program

/-! ### Runs without faults -/

/-- The reply that an event sends. -/
def Event.reply : Event → Option Reply
  | .replied reply => some reply
  | _ => none

/-- The replies to a message. -/
def answers (table : HandleTable) (options : Options) (message : ClientMessage) (world : World) :
    List Reply :=
  ((serveMessage table options message world).2.trace.drop world.trace.length).filterMap Event.reply

section Calls

variable {world : World} (hfaults : world.faults = [])

include hfaults

theorem dropFault_of_nil : world.dropFault = world := by
  unfold World.dropFault
  rw [hfaults, List.tail_nil, ← hfaults]

theorem fault_of_nil : world.fault = .none := by
  rw [World.fault, hfaults]
  rfl

theorem perform_of_ok {α : Type} {call : PosixCall} {op : World → Except Errno (Done α)}
    {done : Done α} (h : op world = .ok done) :
    perform call op world = (.ok done.value, world.called call done.fs done.touched) := by
  unfold perform
  rw [fault_of_nil hfaults, h]
  rfl

theorem perform_of_error {α : Type} {call : PosixCall} {op : World → Except Errno (Done α)}
    {error : Errno} (h : op world = .error error) :
    perform call op world = (.error error, world.called call world.fs []) := by
  unfold perform
  rw [fault_of_nil hfaults, h]
  rfl

theorem weaklyCanonical_of_nil (path : Path) :
    weaklyCanonical path world = (world.fs.weaklyCanonical path, world) := by
  unfold weaklyCanonical
  rw [fault_of_nil hfaults, dropFault_of_nil hfaults]

theorem resolveSftpPath_of_resolves {rootPath canon : Path} {sftpPath : Bytes}
    (h : Resolves world.fs rootPath sftpPath canon) :
    resolveSftpPath rootPath sftpPath world = (.ok canon, world) := by
  obtain ⟨canonRoot, hroot, hcanon, hunder⟩ := h
  have hfirst := weaklyCanonical_of_nil hfaults rootPath
  have hsecond := weaklyCanonical_of_nil hfaults (rootPath.join (relativePath sftpPath))
  rw [hroot] at hfirst
  rw [hcanon] at hsecond
  refine (bind_of_eq hfirst).trans ((bind_of_eq hsecond).trans ?_)
  simp only [if_pos hunder]
  rfl

theorem resolveSftpPath_of_error {rootPath : Path} {sftpPath : Bytes}
    (h : ∀ canon, ¬ Resolves world.fs rootPath sftpPath canon) :
    ∃ error, resolveSftpPath rootPath sftpPath world = (.error error, world) := by
  have hfirst := weaklyCanonical_of_nil hfaults rootPath
  rcases hroot : world.fs.weaklyCanonical rootPath with error | canonRoot
  · rw [hroot] at hfirst
    exact ⟨_, bind_of_eq hfirst⟩
  · rw [hroot] at hfirst
    have hsecond := weaklyCanonical_of_nil hfaults (rootPath.join (relativePath sftpPath))
    rcases hcanon : world.fs.weaklyCanonical (rootPath.join (relativePath sftpPath)) with
      error | canon
    · rw [hcanon] at hsecond
      exact ⟨_, (bind_of_eq hfirst).trans (bind_of_eq hsecond)⟩
    · rw [hcanon] at hsecond
      have hescapes : ¬ canonRoot.elements <+: canon.elements :=
        fun hunder ↦ h canon ⟨canonRoot, hroot, hcanon, hunder⟩
      refine ⟨⟨.ssh .invalidArgument, "path escapes the sftp root", "resolve_sftp_path"⟩,
        (bind_of_eq hfirst).trans ((bind_of_eq hsecond).trans ?_)⟩
      simp only [if_neg hescapes]
      rfl

end Calls

theorem answers_of_trace {table : HandleTable} {options : Options} {message : ClientMessage}
    {world final : World} (events : List Event)
    (h : serveRequest table options message (world.log (.received message)) = ((), final))
    (htrace : final.trace = (world.log (.received message)).trace ++ events) :
    answers table options message world = events.filterMap Event.reply ∧
      (serveMessage table options message world).2.fs = final.fs := by
  have hserved :
      (serveRequest table options message (world.log (.received message))).2 = final := by
    rw [h]
  refine ⟨?_, ?_⟩
  · rw [answers, serveMessage_trace (by rw [hserved, htrace]), List.drop_left,
      List.filterMap_cons_none rfl, List.filterMap_append, List.filterMap_cons_none rfl,
      List.filterMap_nil, List.append_nil]
  · rw [← hserved]
    rfl

/-- The answer to a request that is served by one call. -/
theorem answers_of_called {table : HandleTable} {options : Options} {message : ClientMessage}
    {world : World} (call : PosixCall) (fs : FileSystem) (touched : List Loc) {answer : Reply}
    (h : serveRequest table options message (world.log (.received message)) =
      ((), ((world.log (.received message)).called call fs touched).log (.replied answer))) :
    answers table options message world = [answer] ∧
      (serveMessage table options message world).2.fs = fs := by
  refine answers_of_trace [.called call touched, .replied answer] h ?_
  simp [World.log, World.called, World.dropFault]

/-- The answer to a request that is refused. -/
theorem answers_of_refused {table : HandleTable} {options : Options} {message : ClientMessage}
    {world : World} {answer : Reply}
    (h : serveRequest table options message (world.log (.received message)) =
      ((), (world.log (.received message)).log (.replied answer))) :
    answers table options message world = [answer] := by
  refine (answers_of_trace [.replied answer] h ?_).1
  simp [World.log]

/-! ### Paths of entries -/

/-- A client's path that names an entry of a directory inside the root. -/
structure NamesEntry (fs : FileSystem) (rootPath : Path) (sftpPath : Bytes) (dir : Loc)
    (name : Name) : Prop where
  isName : isEntryName name
  splits : ∃ upper, (relativePath sftpPath).comps = upper ++ [name] ∧
    fs.resolve true ⟨rootPath.absolute, rootPath.entry.comps ++ upper⟩ = .found dir
  inside : ∃ root, fs.resolve true rootPath = .found root ∧ root <+: dir
  isDir : fs.tree.isDir dir = true

/-- Following the client's path leads to nothing: `stat` reports ENOENT or ENOTDIR. -/
def Dangles (fs : FileSystem) (rootPath : Path) (sftpPath : Bytes) : Prop :=
  fs.statusExists (rootPath.join (relativePath sftpPath)) = .ok false

theorem relativePath_absolute (sftpPath : Bytes) : (relativePath sftpPath).absolute = false := by
  unfold relativePath
  dsimp only
  split_ifs
  · decide
  · have hhead := List.head?_dropWhile_not (· = 0x2f) sftpPath
    rcases hfirst : (sftpPath.dropWhile (· = 0x2f)).head? with _ | first
    · simp [Path.ofBytes, hfirst]
    · rw [hfirst] at hhead
      simpa [Path.ofBytes, hfirst] using hhead

section NamesEntry

variable {fs : FileSystem} {rootPath : Path} {sftpPath : Bytes} {dir : Loc} {name : Name}
  (h : NamesEntry fs rootPath sftpPath dir name)

include h

theorem NamesEntry.joined : ∃ upper,
    rootPath.join (relativePath sftpPath) = ⟨rootPath.absolute, upper ++ [name]⟩ ∧
      fs.resolve true ⟨rootPath.absolute, upper⟩ = .found dir := by
  obtain ⟨upper, hcomps, hfound⟩ := h.splits
  refine ⟨rootPath.entry.comps ++ upper, ?_, hfound⟩
  rw [Path.join, relativePath_absolute, hcomps, if_neg (by decide), if_neg (by simp),
    List.append_assoc]

theorem NamesEntry.proper : ProperName name := by
  obtain ⟨upper, hcomps, -⟩ := h.splits
  have hmem : name ∈ (relativePath sftpPath).comps := by
    rw [hcomps]
    exact List.mem_append_right _ List.mem_cons_self
  have hslash : 0x2f ∉ name := by
    unfold relativePath at hmem
    dsimp only at hmem
    split_ifs at hmem
    · exact Path.slash_notMem_ofBytes hmem
    · exact Path.slash_notMem_ofBytes hmem
  exact ⟨fun heq ↦ h.isName.1 (Or.inl heq), fun heq ↦ h.isName.1 (Or.inr heq), h.isName.2, hslash⟩

/-- A path that leads to nothing is accepted and names the entry itself. -/
theorem NamesEntry.resolves (hdangles : Dangles fs rootPath sftpPath) :
    Resolves fs rootPath sftpPath ⟨true, dir ++ [name]⟩ := by
  obtain ⟨upper, hjoin, hfound⟩ := h.joined
  obtain ⟨root, hroot, hinside⟩ := h.inside
  refine ⟨⟨true, root⟩, FileSystem.weaklyCanonical_of_found hroot, ?_, ?_⟩
  · rw [Dangles, hjoin] at hdangles
    rw [hjoin]
    exact weaklyCanonical_of_dangling h.isName hfound hdangles
  · have hunder : root <+: dir ++ [name] := hinside.trans (List.prefix_append _ _)
    exact List.cons_prefix_cons.mpr ⟨rfl, hunder.map some⟩

theorem NamesEntry.dangles_of_free (hfree : fs.tree.get (dir ++ [name]) = none) :
    Dangles fs rootPath sftpPath := by
  obtain ⟨upper, hjoin, hfound⟩ := h.joined
  rw [Dangles, hjoin]
  exact statusExists_of_free h.isName hfound h.isDir hfree

omit h in
/-- A path that leads somewhere is accepted, if at all, as the physical path of an object that
is no link. -/
theorem not_link_of_resolves (hleads : ¬ Dangles fs rootPath sftpPath) {canon : Path}
    (hcanon : Resolves fs rootPath sftpPath canon) :
    ∃ loc node, canon = ⟨true, loc⟩ ∧ fs.tree.get loc = some node ∧
      ∀ target attr, node ≠ .symlink target attr := by
  obtain ⟨-, -, hcanon, -⟩ := hcanon
  rcases hstatus : fs.statusExists (rootPath.join (relativePath sftpPath)) with error | _ | _
  · rw [FileSystem.weaklyCanonical, hstatus] at hcanon
    cases hcanon
  · exact absurd hstatus hleads
  · obtain ⟨loc, hfound⟩ := found_of_statusExists hstatus
    rw [FileSystem.weaklyCanonical_of_found hfound] at hcanon
    have hexists := fs.resolve_sound true (rootPath.join (relativePath sftpPath))
    rw [hfound] at hexists
    obtain ⟨node, hnode⟩ := Option.ne_none_iff_exists'.mp hexists
    refine ⟨loc, node, (Except.ok.inj hcanon).symm, hnode, fun target attr heq ↦ ?_⟩
    exact not_link_of_found hfound target attr (heq ▸ hnode)

end NamesEntry

/-! ### The answers -/

section Answers

variable {table : HandleTable} {options : Options} {message : ClientMessage} {world : World}
  (hfaults : world.faults = []) {canon : Path}

include hfaults

omit hfaults in
theorem serveRequest_lstat (htype : message.type = fxpLstat) :
    serveRequest table options message = serveStat options message := by
  rw [serveRequest, htype]
  rfl

theorem lstat_answers (htype : message.type = fxpLstat)
    (hcanon : Resolves world.fs options.root message.path canon) {done : Done Stat}
    (hdone : world.fs.lstat canon = .ok done) :
    answers table options message world = [.attr (fillAttributes done.value)] := by
  have hstart : (world.log (.received message)).faults = [] := hfaults
  have hcall : lstat canon (world.log (.received message)) =
      (.ok done.value,
        (world.log (.received message)).called (.lstat canon) done.fs done.touched) :=
    perform_of_ok hstart hdone
  refine (answers_of_called (.lstat canon) done.fs done.touched ?_).1
  rw [serveRequest_lstat htype]
  refine (bind_of_eq (resolveSftpPath_of_resolves hstart hcanon)).trans ?_
  simp only [if_pos (Or.inl htype)]
  exact bind_of_eq hcall

theorem lstat_refused (htype : message.type = fxpLstat)
    (hcanon : ∀ canon, ¬ Resolves world.fs options.root message.path canon) :
    answers table options message world = [.status .noSuchFile ""] := by
  have hstart : (world.log (.received message)).faults = [] := hfaults
  obtain ⟨error, herror⟩ := resolveSftpPath_of_error hstart hcanon
  refine answers_of_refused ?_
  rw [serveRequest_lstat htype]
  exact bind_of_eq herror

theorem readlink_answers (htype : message.type = fxpReadlink)
    (hcanon : Resolves world.fs options.root message.path canon) {done : Done Bytes}
    (hdone : world.fs.readlink canon 4095 = .ok done) :
    answers table options message world = [.name (cString done.value) {}] := by
  have hstart : (world.log (.received message)).faults = [] := hfaults
  have hrequest : serveRequest table options message = serveReadlink options message := by
    rw [serveRequest, htype]
    rfl
  have hcall : readlink canon 4095 (world.log (.received message)) =
      (.ok done.value,
        (world.log (.received message)).called (.readlink canon) done.fs done.touched) :=
    perform_of_ok hstart hdone
  refine (answers_of_called (.readlink canon) done.fs done.touched ?_).1
  rw [hrequest]
  exact (bind_of_eq (resolveSftpPath_of_resolves hstart hcanon)).trans (bind_of_eq hcall)

omit hfaults in
theorem denyIfReadOnly_of_writable (hwritable : options.readOnly = false) (world : World) :
    denyIfReadOnly options world = (false, world) := by
  rw [denyIfReadOnly, hwritable]
  rfl

theorem remove_answers (htype : message.type = fxpRemove) (hwritable : options.readOnly = false)
    (hcanon : Resolves world.fs options.root message.path canon) {done : Done Unit}
    (hdone : world.fs.unlink canon = .ok done) :
    answers table options message world = [.status .ok ""] ∧
      (serveMessage table options message world).2.fs = done.fs := by
  have hstart : (world.log (.received message)).faults = [] := hfaults
  have hrequest : serveRequest table options message = serveRemove options message := by
    rw [serveRequest, htype]
    rfl
  have hcall : unlink canon (world.log (.received message)) =
      (.ok done.value,
        (world.log (.received message)).called (.unlink canon) done.fs done.touched) :=
    perform_of_ok hstart hdone
  refine answers_of_called (.unlink canon) done.fs done.touched ?_
  rw [hrequest]
  exact (bind_of_eq (denyIfReadOnly_of_writable hwritable _)).trans
    ((bind_of_eq (resolveSftpPath_of_resolves hstart hcanon)).trans (bind_of_eq hcall))

/-! RENAME. -/

omit hfaults in
theorem serveRequest_rename (htype : message.type = fxpRename)
    (hwritable : options.readOnly = false) (start : World) :
    serveRequest table options message start = (do
      let source ← resolveSftpPath options.root message.path
      let dest ← resolveSftpPath options.root message.dataPath
      match source, dest with
      | .ok source, .ok dest =>
        match ← rename source dest with
        | .error _ => replyStatus .failure ""
        | .ok _ => replyStatus .ok ""
      | _, _ => replyStatus .failure "" : ServerM Unit) start := by
  have hrequest : serveRequest table options message = serveRename options message := by
    rw [serveRequest, htype]
    rfl
  rw [hrequest]
  exact bind_of_eq (denyIfReadOnly_of_writable hwritable start)

section Rename

variable (htype : message.type = fxpRename) (hwritable : options.readOnly = false)
  (hcanon : Resolves world.fs options.root message.path canon)

include htype hwritable hcanon

theorem rename_answers {dest : Path} (hdest : Resolves world.fs options.root message.dataPath dest)
    {done : Done Unit} (hdone : world.fs.rename canon dest = .ok done) :
    answers table options message world = [.status .ok ""] ∧
      (serveMessage table options message world).2.fs = done.fs := by
  have hstart : (world.log (.received message)).faults = [] := hfaults
  have hcall : rename canon dest (world.log (.received message)) =
      (.ok done.value,
        (world.log (.received message)).called (.rename canon dest) done.fs done.touched) :=
    perform_of_ok hstart hdone
  refine answers_of_called (.rename canon dest) done.fs done.touched ?_
  rw [serveRequest_rename htype hwritable]
  exact (bind_of_eq (resolveSftpPath_of_resolves hstart hcanon)).trans
    ((bind_of_eq (resolveSftpPath_of_resolves hstart hdest)).trans (bind_of_eq hcall))

theorem rename_failed {dest : Path} (hdest : Resolves world.fs options.root message.dataPath dest)
    {error : Errno} (herror : world.fs.rename canon dest = .error error) :
    answers table options message world = [.status .failure ""] := by
  have hstart : (world.log (.received message)).faults = [] := hfaults
  have hcall : rename canon dest (world.log (.received message)) = (.error error,
      (world.log (.received message)).called (.rename canon dest) world.fs []) :=
    perform_of_error hstart herror
  refine (answers_of_called (.rename canon dest) world.fs [] ?_).1
  rw [serveRequest_rename htype hwritable]
  exact (bind_of_eq (resolveSftpPath_of_resolves hstart hcanon)).trans
    ((bind_of_eq (resolveSftpPath_of_resolves hstart hdest)).trans (bind_of_eq hcall))

theorem rename_refused (hdest : ∀ dest, ¬ Resolves world.fs options.root message.dataPath dest) :
    answers table options message world = [.status .failure ""] := by
  have hstart : (world.log (.received message)).faults = [] := hfaults
  obtain ⟨error, herror⟩ := resolveSftpPath_of_error hstart hdest
  refine answers_of_refused ?_
  rw [serveRequest_rename htype hwritable]
  exact (bind_of_eq (resolveSftpPath_of_resolves hstart hcanon)).trans (bind_of_eq herror)

/-- A RENAME request that succeeds has renamed what its path was resolved to. -/
theorem renamed_of_answers (hanswers : answers table options message world = [.status .ok ""]) :
    ∃ dest done, world.fs.rename canon dest = .ok done ∧
      (serveMessage table options message world).2.fs = done.fs := by
  by_cases hdest : ∃ dest, Resolves world.fs options.root message.dataPath dest
  · obtain ⟨dest, hdest⟩ := hdest
    rcases hrename : world.fs.rename canon dest with error | done
    · rw [rename_failed hfaults htype hwritable hcanon hdest hrename] at hanswers
      exact absurd hanswers (by decide)
    · exact ⟨dest, done, hrename,
        (rename_answers hfaults htype hwritable hcanon hdest hrename).2⟩
  · rw [rename_refused hfaults htype hwritable hcanon (not_exists.mp hdest)] at hanswers
    exact absurd hanswers (by decide)

end Rename

/-! SYMLINK. -/

omit hfaults in
theorem serveRequest_symlink (htype : message.type = fxpSymlink) :
    serveRequest table options message = serveSymlink options message := by
  rw [serveRequest, htype]
  rfl

section Symlink

variable (htype : message.type = fxpSymlink)

include htype

omit hfaults in
theorem symlink_denied (hreadOnly : options.readOnly = true) :
    answers table options message world = [.status .permissionDenied "read-only sftp root"] := by
  have hdenied : denyIfReadOnly options (world.log (.received message)) = (true,
      (world.log (.received message)).log
        (.replied (.status .permissionDenied "read-only sftp root"))) := by
    rw [denyIfReadOnly, if_pos hreadOnly]
    rfl
  refine answers_of_refused ?_
  rw [serveRequest_symlink htype]
  exact bind_of_eq hdenied

variable (hwritable : options.readOnly = false)

include hwritable

theorem symlink_refused (hlink : ∀ canon, ¬ Resolves world.fs options.root message.dataPath canon) :
    answers table options message world = [.status .failure ""] := by
  have hstart : (world.log (.received message)).faults = [] := hfaults
  obtain ⟨error, herror⟩ := resolveSftpPath_of_error hstart hlink
  refine answers_of_refused ?_
  rw [serveRequest_symlink htype]
  exact (bind_of_eq (denyIfReadOnly_of_writable hwritable _)).trans (bind_of_eq herror)

variable (hlink : Resolves world.fs options.root message.dataPath canon)

include hlink

theorem symlink_failed {error : Errno}
    (herror : world.fs.symlink message.path canon = .error error) :
    answers table options message world = [.status .failure ""] := by
  have hstart : (world.log (.received message)).faults = [] := hfaults
  have hcall : symlink message.path canon (world.log (.received message)) = (.error error,
      (world.log (.received message)).called (.symlink canon) world.fs []) :=
    perform_of_error hstart herror
  refine (answers_of_called (.symlink canon) world.fs [] ?_).1
  rw [serveRequest_symlink htype]
  exact (bind_of_eq (denyIfReadOnly_of_writable hwritable _)).trans
    ((bind_of_eq (resolveSftpPath_of_resolves hstart hlink)).trans (bind_of_eq hcall))

theorem symlink_answers {done : Done Unit}
    (hdone : world.fs.symlink message.path canon = .ok done) :
    answers table options message world = [.status .ok ""] ∧
      (serveMessage table options message world).2.fs = done.fs := by
  have hstart : (world.log (.received message)).faults = [] := hfaults
  have hcall : symlink message.path canon (world.log (.received message)) =
      (.ok done.value,
        (world.log (.received message)).called (.symlink canon) done.fs done.touched) :=
    perform_of_ok hstart hdone
  refine answers_of_called (.symlink canon) done.fs done.touched ?_
  rw [serveRequest_symlink htype]
  exact (bind_of_eq (denyIfReadOnly_of_writable hwritable _)).trans
    ((bind_of_eq (resolveSftpPath_of_resolves hstart hlink)).trans (bind_of_eq hcall))

end Symlink

/-- A SYMLINK request that succeeds has stored the target it was given under a free name. -/
theorem stored_of_answers (htype : message.type = fxpSymlink)
    (hanswers : answers table options message world = [.status .ok ""]) :
    ∃ loc stored attr, world.fs.tree.get loc = none ∧ stored.val = message.path ∧
      (serveMessage table options message world).2.fs.tree.get loc =
        some (.symlink stored attr) := by
  by_cases hwritable : options.readOnly = false
  · by_cases hlink : ∃ canon, Resolves world.fs options.root message.dataPath canon
    · obtain ⟨canon, hlink⟩ := hlink
      rcases hsymlink : world.fs.symlink message.path canon with error | done
      · rw [symlink_failed hfaults htype hwritable hlink hsymlink] at hanswers
        exact absurd hanswers (by decide)
      · rw [(symlink_answers hfaults htype hwritable hlink hsymlink).2]
        exact stored_of_symlink hsymlink
    · rw [symlink_refused hfaults htype hwritable (not_exists.mp hlink)] at hanswers
      exact absurd hanswers (by decide)
  · rw [symlink_denied htype (by simpa using hwritable)] at hanswers
    exact absurd hanswers (by decide)

end Answers

/-! ### Requests on a link -/

/-- The entry-level requests on a client's path act on the link at `loc`: LSTAT reports a link,
READLINK returns its target, REMOVE takes the link away and nothing else, and RENAME moves
the link and nothing else, also to every free name inside the root. -/
structure ActsOnEntry (table : HandleTable) (options : Options) (world : World) (sftpPath : Bytes)
    (loc : Loc) (target : LinkTarget) : Prop where
  lstat : ∀ message : ClientMessage, message.type = fxpLstat → message.path = sftpPath →
    ∃ attr, answers table options message world = [.attr attr] ∧ attr.type = typeSymlink
  readlink : ∀ message : ClientMessage, message.type = fxpReadlink → message.path = sftpPath →
    answers table options message world = [.name target.val {}]
  remove : options.readOnly = false → ∀ message : ClientMessage, message.type = fxpRemove →
    message.path = sftpPath →
      answers table options message world = [.status .ok ""] ∧
        RemovedAt world.fs (serveMessage table options message world).2.fs loc
  rename : options.readOnly = false → ∀ message : ClientMessage, message.type = fxpRename →
    message.path = sftpPath → answers table options message world = [.status .ok ""] →
      ∃ dest, MovedTo world.fs (serveMessage table options message world).2.fs loc dest
  renameFree : options.readOnly = false → ∀ message : ClientMessage, message.type = fxpRename →
    message.path = sftpPath → ∀ dir name,
      NamesEntry world.fs options.root message.dataPath dir name →
        world.fs.tree.get (dir ++ [name]) = none →
          answers table options message world = [.status .ok ""] ∧
            MovedTo world.fs (serveMessage table options message world).2.fs loc (dir ++ [name])

theorem type_of_link (attr : NodeAttr) (size : ℕ) :
    (fillAttributes (FileSystem.statOf attr modeSymlink size)).type = typeSymlink := by
  simp only [fillAttributes, isRegularMode, isDirectoryMode, isSymlinkMode, statOf_type]
  decide

theorem type_of_not_link {fs : FileSystem} {node : Node}
    (h : ∀ target attr, node ≠ .symlink target attr) :
    (fillAttributes (fs.statNode node)).type ≠ typeSymlink := by
  cases node with
  | dir ino =>
    simp only [FileSystem.statNode, FileSystem.statInode, if_true, fillAttributes, isRegularMode,
      isDirectoryMode, isSymlinkMode, statOf_type]
    decide
  | file ino =>
    simp only [FileSystem.statNode, FileSystem.statInode, Bool.false_eq_true, if_false,
      fillAttributes, isRegularMode, isDirectoryMode, isSymlinkMode, statOf_type]
    decide
  | symlink target attr => exact absurd rfl (h target attr)

section Entry

variable (table : HandleTable) (options : Options) {world : World} (hfaults : world.faults = [])
  {sftpPath : Bytes} {dir : Loc} {name : Name} {target : LinkTarget} {attr : NodeAttr}

include hfaults

theorem actsOnEntry_of_dangles (hentry : NamesEntry world.fs options.root sftpPath dir name)
    (hlink : world.fs.tree.get (dir ++ [name]) = some (.symlink target attr))
    (hdangles : Dangles world.fs options.root sftpPath) :
    ActsOnEntry table options world sftpPath (dir ++ [name]) target := by
  have hcanon := hentry.resolves hdangles
  refine ⟨?_, ?_, ?_, ?_, ?_⟩
  · rintro message htype rfl
    exact ⟨_, lstat_answers hfaults htype hcanon (lstat_physical hlink), type_of_link attr _⟩
  · rintro message htype rfl
    rw [readlink_answers hfaults htype hcanon (readlink_link hentry.isName hlink 4095)]
    have hlength : target.val.length ≤ 4095 := Nat.le_of_lt_succ target.property.2.2
    rw [List.take_of_length_le hlength, cString_eq_self target.property.2.1]
  · rintro hwritable message htype rfl
    obtain ⟨done, hdone, hremoved⟩ := unlink_link hentry.isName hlink
    have hremove : answers table options message world = _ ∧ _ :=
      remove_answers hfaults htype hwritable hcanon hdone
    exact ⟨hremove.1, hremove.2 ▸ hremoved⟩
  · rintro hwritable message htype rfl hanswers
    obtain ⟨dest, done, hdone, hfs⟩ :=
      renamed_of_answers hfaults htype hwritable hcanon hanswers
    rw [hfs]
    exact rename_link hentry.isName hlink hdone
  · rintro hwritable message htype rfl destDir dest hdest hfree
    obtain ⟨done, hdone, hmoved⟩ :=
      rename_link_free hentry.isName hlink hdest.isDir hdest.proper hfree
    have hresolves := hdest.resolves (hdest.dangles_of_free hfree)
    have hrename : answers table options message world = _ ∧ _ :=
      rename_answers hfaults htype hwritable hcanon hresolves hdone
    exact ⟨hrename.1, hrename.2 ▸ hmoved⟩

theorem dangles_of_lstat {message : ClientMessage} (htype : message.type = fxpLstat)
    {reported : NativeAttributes}
    (hanswers : answers table options message world = [.attr reported])
    (hreported : reported.type = typeSymlink) : Dangles world.fs options.root message.path := by
  by_contra hleads
  by_cases hcanon : ∃ canon, Resolves world.fs options.root message.path canon
  · obtain ⟨canon, hcanon⟩ := hcanon
    obtain ⟨loc, node, rfl, hnode, hnotLink⟩ := not_link_of_resolves hleads hcanon
    rw [lstat_answers hfaults htype hcanon (lstat_physical hnode)] at hanswers
    simp only [List.cons.injEq, Reply.attr.injEq, and_true] at hanswers
    exact type_of_not_link hnotLink (hanswers ▸ hreported)
  · rw [lstat_refused hfaults htype (not_exists.mp hcanon)] at hanswers
    simp at hanswers

/-- The requests on a path that names a link act on the link exactly if following it leads to
nothing; and what a SYMLINK request stores is the target that it was given. -/
theorem entryRequests_iff (filename : Bytes)
    (hentry : NamesEntry world.fs options.root (cString filename) dir name)
    (hlink : world.fs.tree.get (dir ++ [name]) = some (.symlink target attr)) :
    (ActsOnEntry table options world (cString filename) (dir ++ [name]) target ↔
      Dangles world.fs options.root (cString filename)) ∧
    ∀ message : ClientMessage, message.type = fxpSymlink →
      answers table options message world = [.status .ok ""] →
        ∃ loc stored attr, world.fs.tree.get loc = none ∧ stored.val = message.path ∧
          (serveMessage table options message world).2.fs.tree.get loc =
            some (.symlink stored attr) := by
  refine ⟨⟨fun hacts ↦ ?_, actsOnEntry_of_dangles table options hfaults hentry hlink⟩,
    fun message htype hanswers ↦ stored_of_answers hfaults htype hanswers⟩
  obtain ⟨reported, hanswers, hreported⟩ :=
    hacts.lstat { type := fxpLstat, filename := some filename } rfl rfl
  have hdangles := dangles_of_lstat table options hfaults rfl hanswers hreported
  exact hdangles

end Entry

/-- A file system with the file `/srv/f`, the link `/srv/l` to it and the link `/srv/m` to
nothing. -/
def linkedFile : FileSystem where
  tree := {
    nodes := ⟨[⟨[], .dir 0⟩, ⟨[ascii "srv"], .dir 1⟩, ⟨[ascii "srv", ascii "f"], .file 2⟩,
      ⟨[ascii "srv", ascii "l"], .symlink ⟨ascii "f", by decide⟩ {}⟩,
      ⟨[ascii "srv", ascii "m"], .symlink ⟨ascii "gone", by decide⟩ {}⟩],
      by unfold List.NodupKeys; decide⟩
    root := by decide
    parent := by decide
    proper := by decide }
  inodes := [{}, {}, { data := ascii "hello" }]

theorem namesEntry_linkedFile {name : Name} (h : name ∈ [ascii "l", ascii "m"]) :
    NamesEntry linkedFile srvServer.root (cString name) [ascii "srv"] name := by
  have hname : name = ascii "l" ∨ name = ascii "m" := by simpa using h
  rcases hname with rfl | rfl
  · exact ⟨by decide, ⟨[], by decide, by decide⟩, ⟨[ascii "srv"], by decide, by decide⟩, by decide⟩
  · exact ⟨by decide, ⟨[], by decide, by decide⟩, ⟨[ascii "srv"], by decide, by decide⟩, by decide⟩

theorem entryRequests_iff_dangling :
    Dangles linkedFile srvServer.root (cString (ascii "m")) ∧
      ActsOnEntry HandleTable.firstFree srvServer { fs := linkedFile } (cString (ascii "m"))
        ([ascii "srv"] ++ [ascii "m"]) ⟨ascii "gone", by decide⟩ := by
  have hdangles : Dangles linkedFile srvServer.root (cString (ascii "m")) := by
    unfold Dangles
    decide
  have hlink : linkedFile.tree.get ([ascii "srv"] ++ [ascii "m"]) =
      some (.symlink ⟨ascii "gone", by decide⟩ {}) := by decide
  refine ⟨hdangles, ?_⟩
  exact (entryRequests_iff HandleTable.firstFree srvServer rfl (ascii "m")
    (namesEntry_linkedFile (by decide)) hlink).1.mpr hdangles

/-- A REMOVE request on the link `/srv/l` removes the file it points to. -/
theorem remove_follows_link :
    NamesEntry linkedFile srvServer.root (cString (ascii "l")) [ascii "srv"] (ascii "l") ∧
      linkedFile.tree.get ([ascii "srv"] ++ [ascii "l"]) =
        some (.symlink ⟨ascii "f", by decide⟩ {}) ∧
      ¬ ActsOnEntry HandleTable.firstFree srvServer { fs := linkedFile } (cString (ascii "l"))
        ([ascii "srv"] ++ [ascii "l"]) ⟨ascii "f", by decide⟩ := by
  refine ⟨namesEntry_linkedFile (by decide), by decide, fun hacts ↦ ?_⟩
  have hremoved := (hacts.remove rfl { type := fxpRemove, filename := some (ascii "l") } rfl rfl).2
  have hfile := hremoved.2 [ascii "srv", ascii "f"]
  exact absurd hfile (by decide +kernel)

end LibSshpp.SftpServer
