import LibSshpp.Posix.NewObjects
import LibSshpp.Sftp.Transfer

/-!
`Sftp::try_mkdir_p`, which asks for every level of a path whether it exists and makes it if
it does not. The two requests of a level are separate, so another client may make the
level between them; then the server refuses to make it again.
-/

set_option autoImplicit false
set_option relaxedAutoImplicit false

namespace LibSshpp.Sftp

open Posix Program

/-! ### One client -/

def sshFxNoSuchPath : ℤ := 10

/-- A status that is not `SSH_FX_OK`. -/
abbrev FailureStatus := {status : ℤ // status ≠ 0}

/-- The server of the requests: its files, and the statuses with which it answers the errors
of `stat` and of `mkdir`. -/
structure MkdirServer where
  fs : FileSystem
  statStatus : Errno → FailureStatus
  mkdirStatus : Errno → FailureStatus

/-- The path that a request with this text is about. -/
def requestPath (path : Bytes) : Path := .ofBytes (cString path)

/-- `Sftp::try_stat` of an open session. -/
def tryStat (path : Bytes) (server : MkdirServer) : Result Attributes :=
  match server.fs.stat (requestPath path) with
  | .error error => .error (makeSftpErrorInfo (server.statStatus error) {} "sftp_stat")
  | .ok done => .ok (attributesFromNative (fillAttributes done.value))

/-- `Sftp::try_exists`. -/
def tryExists (path : Bytes) (server : MkdirServer) : Result Bool :=
  match tryStat path server with
  | .ok _ => .ok true
  | .error info =>
    if info.code = .sftp sshFxNoSuchFile ∨ info.code = .sftp sshFxNoSuchPath then .ok false
    else .error info

/-- `Sftp::try_mkdir` of an open session. -/
def tryMkdir (path : Bytes) (perms : UInt32) (server : MkdirServer) : Result Unit × MkdirServer :=
  match server.fs.mkdir (requestPath path) perms with
  | .error error => (.error (makeSftpErrorInfo (server.mkdirStatus error) {} "sftp_mkdir"), server)
  | .ok done => (.ok (), { server with fs := done.fs })

/-- The values of `current` in the loop of `try_mkdir_p`, for the segments that are not
empty. -/
def levelsFrom (current : Bytes) : List Bytes → List Bytes
  | [] => []
  | segment :: rest =>
    let next :=
      (if current ≠ [] ∧ current.getLast? ≠ some 0x2f then current ++ [0x2f] else current) ++
        segment
    next :: levelsFrom next rest

def levels (full : Bytes) : List Bytes :=
  levelsFrom (if full.head? = some 0x2f then [0x2f] else []) ((segments full).filter (· ≠ []))

/-- The loop of `try_mkdir_p`. -/
def makeLevels (perms : UInt32) : List Bytes → MkdirServer → Result Unit × MkdirServer
  | [], server => (.ok (), server)
  | level :: rest, server =>
    match tryExists level server with
    | .error info => (.error info, server)
    | .ok true => makeLevels perms rest server
    | .ok false =>
      match tryMkdir level perms server with
      | (.error info, server) => (.error info, server)
      | (.ok (), server) => makeLevels perms rest server

/-- `Sftp::try_mkdir_p`. -/
def tryMkdirP (path : Bytes) (perms : UInt32) (server : MkdirServer) : Result Unit × MkdirServer :=
  makeLevels perms (levels path) server

/-- The path is the one of a directory. -/
def IsDirectory (path : Bytes) (server : MkdirServer) : Prop :=
  ∃ loc, server.fs.resolve true (requestPath path) = .found loc ∧ server.fs.tree.isDir loc = true

/-- The tree permits the creation of a path: a client alone makes it a directory. -/
def Permits (path : Bytes) (perms : UInt32) (server : MkdirServer) : Prop :=
  (tryMkdirP path perms server).1 = .ok () ∧ IsDirectory path (tryMkdirP path perms server).2

/-! ### What a request does -/

section Requests

variable {server first second : MkdirServer} {level path : Bytes} {perms other : UInt32}
  {rest todo : List Bytes}

theorem tryExists_iff_found :
    tryExists level server = .ok true ↔
      ∃ loc, server.fs.resolve true (requestPath level) = .found loc := by
  have hsound := server.fs.resolve_sound true (requestPath level)
  unfold tryExists tryStat FileSystem.stat FileSystem.statPath FileSystem.lookup
  rcases hresolve : server.fs.resolve true (requestPath level) with loc | ⟨dir, name, rest⟩ | error
  · rw [hresolve] at hsound
    obtain ⟨node, hnode⟩ := Option.ne_none_iff_exists'.mp hsound
    simp [hnode]
  · dsimp only
    split_ifs <;> simp
  · dsimp only
    split_ifs <;> simp

/-- A level is made if it was not there; then it is, and what else was there still is. -/
theorem tryMkdir_cases (level : Bytes) (perms : UInt32) (server : MkdirServer) :
    (∃ info, tryMkdir level perms server = (.error info, server)) ∨
      ∃ after, tryMkdir level perms server = (.ok (), after) ∧ tryExists level server ≠ .ok true ∧
        tryExists level after = .ok true ∧
        ∀ level, tryExists level server = .ok true → tryExists level after = .ok true := by
  unfold tryMkdir
  cases hmkdir : server.fs.mkdir (requestPath level) perms with
  | error error => exact .inl ⟨_, rfl⟩
  | ok done =>
    obtain ⟨dir, name, hadds, hmade⟩ := resolve_of_mkdir hmkdir
    refine .inr ⟨_, rfl, ?_, tryExists_iff_found.mpr ⟨_, hmade⟩, ?_⟩
    · intro hexists
      obtain ⟨loc, hfound⟩ := tryExists_iff_found.mp hexists
      obtain ⟨error, herror⟩ := mkdir_of_found hfound perms
      exact nomatch hmkdir.symm.trans herror
    · intro level hexists
      obtain ⟨loc, hfound⟩ := tryExists_iff_found.mp hexists
      exact tryExists_iff_found.mpr ⟨loc, hadds.grows.resolve hfound⟩

/-- The servers differ at most in what their inodes hold. -/
structure Alike (first second : MkdirServer) : Prop where
  tree : first.fs.tree = second.fs.tree
  count : first.fs.inodes.length = second.fs.inodes.length
  cwd : first.fs.cwd = second.fs.cwd
  statStatus : first.statStatus = second.statStatus
  mkdirStatus : first.mkdirStatus = second.mkdirStatus

namespace Alike

theorem refl (server : MkdirServer) : Alike server server := ⟨rfl, rfl, rfl, rfl, rfl⟩

theorem resolve (h : Alike first second) (follow : Bool) (path : Path) :
    first.fs.resolve follow path = second.fs.resolve follow path := by
  rw [FileSystem.resolve, FileSystem.resolve, h.tree, h.cwd]

theorem tryExists (h : Alike first second) (level : Bytes) :
    tryExists level first = tryExists level second := by
  unfold Sftp.tryExists tryStat FileSystem.stat FileSystem.statPath FileSystem.lookup
  rw [h.resolve, h.tree, h.statStatus]
  rcases second.fs.resolve true (requestPath level) with loc | ⟨dir, name, rest⟩ | error
  · dsimp only
    cases second.fs.tree.get loc <;> rfl
  · rfl
  · rfl

/-- The permissions of a new directory do not decide whether it can be made. -/
theorem tryMkdir (h : Alike first second) (level : Bytes) (perms other : UInt32) :
    (tryMkdir level perms first).1 = (tryMkdir level other second).1 ∧
      Alike (tryMkdir level perms first).2 (tryMkdir level other second).2 := by
  unfold Sftp.tryMkdir FileSystem.mkdir FileSystem.lookupFree FileSystem.create
  rw [h.resolve, h.tree, h.count, h.mkdirStatus]
  rcases second.fs.resolve false (requestPath level).entry with
    loc | ⟨dir, name, _ | ⟨comp, rest⟩⟩ | error
  · exact ⟨rfl, h⟩
  · dsimp only
    cases second.fs.tree.putAt dir name (.dir second.fs.inodes.length) with
    | none => exact ⟨rfl, h⟩
    | some tree =>
      refine ⟨rfl, rfl, ?_, h.cwd, h.statStatus, rfl⟩
      simp [FileSystem.addInode, h.count]
  · exact ⟨rfl, h⟩
  · exact ⟨rfl, h⟩

end Alike

theorem makeLevels_of_alike (perms other : UInt32) (todo : List Bytes) :
    ∀ {first second : MkdirServer}, Alike first second →
      (makeLevels perms todo first).1 = (makeLevels other todo second).1 ∧
        Alike (makeLevels perms todo first).2 (makeLevels other todo second).2 := by
  induction todo with
  | nil => exact fun h ↦ ⟨rfl, h⟩
  | cons level rest ih =>
    intro first second h
    rw [makeLevels, makeLevels, h.tryExists]
    rcases tryExists level second with info | _ | _
    · exact ⟨rfl, h⟩
    · obtain ⟨hresult, hafter⟩ := h.tryMkdir level perms other
      dsimp only
      rcases hfirst : tryMkdir level perms first with ⟨result, after⟩
      rcases hsecond : tryMkdir level other second with ⟨result', after'⟩
      rw [hfirst, hsecond] at hresult hafter
      obtain rfl : result = result' := hresult
      cases result with
      | error info => exact ⟨rfl, hafter⟩
      | ok => exact ih hafter
    · exact ih h

/-- A client alone makes these levels, and then the path is a directory. -/
def Makes (path : Bytes) (perms : UInt32) (todo : List Bytes) (server : MkdirServer) : Prop :=
  (makeLevels perms todo server).1 = .ok () ∧ IsDirectory path (makeLevels perms todo server).2

theorem isDirectory_of_alike (h : Alike first second) :
    IsDirectory path first ↔ IsDirectory path second := by
  rw [IsDirectory, IsDirectory, h.resolve, h.tree]

theorem makes_of_alike (h : Alike first second) :
    Makes path perms todo first ↔ Makes path perms todo second := by
  obtain ⟨hresult, hafter⟩ := makeLevels_of_alike perms perms todo h
  rw [Makes, Makes, hresult, isDirectory_of_alike hafter]

/-- The first of the levels exists, or any client can make it. -/
theorem makes_cons (h : Makes path perms (level :: rest) server) :
    (tryExists level server = .ok true ∧ Makes path perms rest server) ∨
      (tryExists level server = .ok false ∧ ∀ other, ∃ after,
        tryMkdir level other server = (.ok (), after) ∧ Makes path perms rest after) := by
  rw [Makes, makeLevels] at h
  rcases hexists : tryExists level server with info | _ | _
  · rw [hexists] at h
    exact nomatch h.1
  · refine .inr ⟨rfl, fun other ↦ ?_⟩
    rw [hexists] at h
    obtain ⟨hresult, hafter⟩ := (Alike.refl server).tryMkdir level other perms
    rcases hmade : tryMkdir level perms server with ⟨_ | _, after⟩
    · rw [hmade] at h
      exact nomatch h.1
    · rw [hmade] at h hresult hafter
      refine ⟨(tryMkdir level other server).2, Prod.ext hresult rfl, ?_⟩
      exact (makes_of_alike hafter).mpr h
  · rw [hexists] at h
    exact .inl ⟨rfl, h⟩

end Requests

/-! ### Two clients -/

/-- A call of `try_mkdir_p` between its requests: the levels that are still to do, whether
the first of them was found missing, and what the call returned. -/
structure MkdirCall where
  perms : UInt32
  todo : List Bytes
  missing : Bool := false
  result : Option (Result Unit) := none
  deriving DecidableEq, Repr

namespace MkdirCall

/-- The call goes on with these levels, and returns if there are none. -/
def goOn (call : MkdirCall) (todo : List Bytes) : MkdirCall :=
  { call with todo, missing := false, result := if todo = [] then some (.ok ()) else none }

def start (path : Bytes) (perms : UInt32) : MkdirCall :=
  goOn { perms, todo := [] } (levels path)

def fail (call : MkdirCall) (info : ErrorInfo) : MkdirCall :=
  { call with result := some (.error info) }

/-- The next request of the call. -/
def request (call : MkdirCall) (server : MkdirServer) : MkdirCall × MkdirServer :=
  match call.result, call.todo with
  | none, level :: rest =>
    if call.missing then
      match tryMkdir level call.perms server with
      | (.error info, server) => (call.fail info, server)
      | (.ok (), server) => (call.goOn rest, server)
    else match tryExists level server with
      | .error info => (call.fail info, server)
      | .ok true => (call.goOn rest, server)
      | .ok false => ({ call with missing := true }, server)
  | _, _ => (call, server)

end MkdirCall

inductive Side
  | left
  | right
  deriving DecidableEq, Repr

def Side.opposite : Side → Side
  | .left => .right
  | .right => .left

/-- The tree of the server and the calls of two clients. -/
structure MkdirRace where
  server : MkdirServer
  left : MkdirCall
  right : MkdirCall

namespace MkdirRace

def start (server : MkdirServer) (path : Bytes) (leftPerms rightPerms : UInt32) : MkdirRace where
  server := server
  left := .start path leftPerms
  right := .start path rightPerms

def call (race : MkdirRace) : Side → MkdirCall
  | .left => race.left
  | .right => race.right

/-- The next request of one of the clients is served. -/
def step : Side → StateM MkdirRace Unit
  | .left => fun race ↦
    let (left, server) := race.left.request race.server
    ((), { race with left, server })
  | .right => fun race ↦
    let (right, server) := race.right.request race.server
    ((), { race with right, server })

end MkdirRace

/-- Both calls have succeeded, and the path is a directory. -/
def BothMade (path : Bytes) (race : MkdirRace) : Prop :=
  race.left.result = some (.ok ()) ∧ race.right.result = some (.ok ()) ∧
    IsDirectory path race.server

/-- The next request asks for a level that the other client has found missing and has not yet
tried to make. -/
def Overlaps (race : MkdirRace) (side : Side) : Prop :=
  (race.call side).result = none ∧ (race.call side).missing = false ∧
    (race.call side.opposite).result = none ∧ (race.call side.opposite).missing = true ∧
      (race.call side).todo.head? = (race.call side.opposite).todo.head?

/-! ### The requests of one call -/

namespace MkdirCall

variable {call : MkdirCall} {server after : MkdirServer} {level : Bytes}
  {ahead rest todo : List Bytes}

@[simp] theorem goOn_todo : (call.goOn todo).todo = todo := rfl
@[simp] theorem goOn_missing : (call.goOn todo).missing = false := rfl
@[simp] theorem goOn_perms : (call.goOn todo).perms = call.perms := rfl

theorem request_of_result {result : Result Unit} (h : call.result = some result) :
    call.request server = (call, server) := by
  rw [request, h]

theorem request_of_nil (h : call.todo = []) : call.request server = (call, server) := by
  rw [request, h]
  cases call.result <;> rfl

theorem request_mkdir (server : MkdirServer) (hresult : call.result = none)
    (htodo : call.todo = level :: rest) (hmissing : call.missing = true) :
    call.request server = match tryMkdir level call.perms server with
      | (.error info, server) => (call.fail info, server)
      | (.ok (), server) => (call.goOn rest, server) := by
  rw [request, hresult, htodo]
  exact if_pos hmissing

theorem request_stat (server : MkdirServer) (hresult : call.result = none)
    (htodo : call.todo = level :: rest) (hmissing : call.missing = false) :
    call.request server = match tryExists level server with
      | .error info => (call.fail info, server)
      | .ok true => (call.goOn rest, server)
      | .ok false => ({ call with missing := true }, server) := by
  rw [request, hresult, htodo]
  exact if_neg (by rw [hmissing]; exact Bool.false_ne_true)

/-- The next request is served, and nobody else asks. -/
def serve (state : MkdirCall × MkdirServer) : MkdirCall × MkdirServer := state.1.request state.2

theorem iterate_serve_of_result {result : Result Unit} (h : call.result = some result) (count : ℕ) :
    serve^[count] (call, server) = (call, server) :=
  Function.iterate_fixed (request_of_result h) count

/-- The requests of a call that nobody interferes with are those of `try_mkdir_p`. -/
theorem iterate_serve (todo : List Bytes) (call : MkdirCall) (server : MkdirServer) :
    ∃ final, serve^[2 * todo.length] (call.goOn todo, server) =
        (final, (makeLevels call.perms todo server).2) ∧
      final.result = some (makeLevels call.perms todo server).1 := by
  induction todo generalizing call server with
  | nil => exact ⟨_, rfl, rfl⟩
  | cons level rest ih =>
    have hstat : (call.goOn (level :: rest)).request server = _ := request_stat _ rfl rfl rfl
    have hcount : 2 * (level :: rest).length = 2 * rest.length + 1 + 1 := by
      rw [List.length_cons]
      omega
    rw [hcount, Function.iterate_succ_apply, serve, hstat, makeLevels]
    rcases hexists : tryExists level server with info | _ | _
    · exact ⟨_, iterate_serve_of_result rfl _, rfl⟩
    · dsimp only
      rw [Function.iterate_succ_apply, serve, request_mkdir _ rfl rfl rfl]
      dsimp only [goOn_perms]
      rcases tryMkdir level call.perms server with ⟨_ | _, after⟩
      · exact ⟨_, iterate_serve_of_result rfl _, rfl⟩
      · exact ih call after
    · obtain ⟨final, hfinal, hresult⟩ := ih call server
      refine ⟨final, ?_, hresult⟩
      rw [Function.iterate_succ_apply']
      exact (congrArg serve hfinal).trans (request_of_result hresult)

theorem iterate_serve_start (path : Bytes) (perms : UInt32) (server : MkdirServer) :
    ∃ final, serve^[2 * (levels path).length] (start path perms, server) =
        (final, (tryMkdirP path perms server).2) ∧
      final.result = some (tryMkdirP path perms server).1 :=
  iterate_serve (levels path) _ server

/-- How many requests a call still sends at most. -/
def requestsLeft (call : MkdirCall) : ℕ :=
  if call.result ≠ none then 0 else 2 * call.todo.length - if call.missing then 1 else 0

theorem requestsLeft_goOn_le : (call.goOn todo).requestsLeft ≤ 2 * todo.length := by
  unfold requestsLeft
  split_ifs
  · exact Nat.zero_le _
  · exact Nat.sub_le _ _
  · exact Nat.sub_le _ _

theorem requestsLeft_request_le (call : MkdirCall) (server : MkdirServer) :
    (call.request server).1.requestsLeft ≤ call.requestsLeft - 1 := by
  cases hresult : call.result with
  | some result =>
    rw [request_of_result hresult, requestsLeft, hresult]
    exact Nat.zero_le _
  | none =>
    cases htodo : call.todo with
    | nil =>
      rw [request_of_nil htodo, requestsLeft, htodo, hresult]
      simp
    | cons level rest =>
      have hnext : ∀ call : MkdirCall, (call.goOn rest).requestsLeft ≤ 2 * rest.length :=
        fun call ↦ requestsLeft_goOn_le
      have hleft : call.requestsLeft = 2 * (rest.length + 1) - if call.missing then 1 else 0 := by
        rw [requestsLeft, hresult, htodo, List.length_cons]
        rfl
      cases hmissing : call.missing with
      | true =>
        rw [request_mkdir server hresult htodo hmissing, hleft, hmissing]
        rcases tryMkdir level call.perms server with ⟨info | _, after⟩
        · exact Nat.zero_le _
        · have hgoOn := hnext call
          simp only [if_true]
          omega
      | false =>
        rw [request_stat server hresult htodo hmissing, hleft, hmissing]
        rcases tryExists level server with info | _ | _
        · exact Nat.zero_le _
        · dsimp only
          rw [requestsLeft, hresult, htodo]
          simp
        · have hgoOn := hnext call
          simp only [Bool.false_eq_true, if_false]
          omega

/-- The call has these levels to do after some that exist, and has returned if there are none.
If it found a level missing, it is the first of these, and it is missing. -/
structure Follows (ahead : List Bytes) (server : MkdirServer) (call : MkdirCall) : Prop where
  behind : ∃ behind, call.todo = behind ++ ahead ∧
    ∀ level ∈ behind, tryExists level server = .ok true
  result : call.result = if call.todo = [] then some (.ok ()) else none
  pending : call.missing = true →
    ∃ level rest, call.todo = level :: rest ∧ ahead = call.todo ∧ tryExists level server = .ok false

theorem follows_goOn {behind : List Bytes}
    (hbehind : ∀ level ∈ behind, tryExists level server = .ok true) :
    Follows ahead server (call.goOn (behind ++ ahead)) where
  behind := ⟨behind, rfl, hbehind⟩
  result := rfl
  pending := fun h ↦ nomatch h

theorem follows_nil_goOn : Follows ahead server (call.goOn ahead) := by
  have hnone : ∀ level ∈ ([] : List Bytes), tryExists level server = .ok true := by simp
  exact follows_goOn hnone

namespace Follows

/-- The other client has passed the first level. -/
theorem passed (h : Follows (level :: rest) server call) (hmissing : call.missing = false)
    (hkept : ∀ level, tryExists level server = .ok true → tryExists level after = .ok true)
    (hlevel : tryExists level after = .ok true) : Follows rest after call where
  behind := by
    obtain ⟨behind, htodo, hbehind⟩ := h.behind
    refine ⟨behind ++ [level], by rw [htodo, List.append_assoc, List.singleton_append], ?_⟩
    intro other hother
    rcases List.mem_append.mp hother with hother | hother
    · exact hkept other (hbehind other hother)
    · rwa [List.mem_singleton.mp hother]
  result := h.result
  pending := fun hpending ↦ nomatch hmissing.symm.trans hpending

theorem result_eq_none (h : Follows ahead server call) (htodo : call.todo ≠ []) :
    call.result = none := by
  rw [h.result, if_neg htodo]

/-- A call that sends no more requests has done its levels. -/
theorem todo_eq_nil (h : Follows ahead server call) (hleft : call.requestsLeft = 0) :
    call.todo = [] := by
  by_contra htodo
  have hlength := List.length_pos_iff.mpr htodo
  rw [requestsLeft, if_neg (not_not_intro (h.result_eq_none htodo))] at hleft
  split_ifs at hleft <;> omega

end Follows

end MkdirCall

/-! ### The requests of two calls -/

theorem Side.ne_opposite (side : Side) : side ≠ side.opposite := by
  cases side <;> decide

theorem Side.eq_or_eq_opposite (side turn : Side) : turn = side ∨ turn = side.opposite := by
  cases side <;> cases turn <;> decide

theorem Side.opposite_opposite (side : Side) : side.opposite.opposite = side := by
  cases side <;> rfl

namespace MkdirRace

variable {race : MkdirRace} {side : Side} {path level : Bytes} {perms : UInt32}
  {ahead rest : List Bytes}

theorem step_call (side : Side) (race : MkdirRace) :
    (step side race).2.call side = ((race.call side).request race.server).1 := by
  cases side <;> rfl

theorem call_step_of_ne {other : Side} (hne : other ≠ side) (race : MkdirRace) :
    (step other race).2.call side = race.call side := by
  cases side <;> cases other
  · exact absurd rfl hne
  · rfl
  · rfl
  · exact absurd rfl hne

theorem step_opposite (side : Side) (race : MkdirRace) :
    (step side race).2.call side.opposite = race.call side.opposite :=
  call_step_of_ne side.ne_opposite race

theorem step_server (side : Side) (race : MkdirRace) :
    (step side race).2.server = ((race.call side).request race.server).2 := by
  cases side <;> rfl

/-- Both clients are on their way, the other levels up to the ones ahead exist, and at most one
found the first of these missing. -/
structure Advances (path : Bytes) (perms : UInt32) (race : MkdirRace) (ahead : List Bytes) :
    Prop where
  makes : Makes path perms ahead race.server
  call : ∀ side, (race.call side).Follows ahead race.server
  alone : ∀ side, (race.call side).missing = true → (race.call side.opposite).missing = false

namespace Advances

theorem of_side (side : Side) (hmakes : Makes path perms ahead race.server)
    (hcall : (race.call side).Follows ahead race.server)
    (hother : (race.call side.opposite).Follows ahead race.server)
    (halone : (race.call side).missing = true → (race.call side.opposite).missing = false) :
    Advances path perms race ahead := by
  have hcontra : (race.call side.opposite).missing = true → (race.call side).missing = false := by
    intro hmissing
    by_contra h
    exact nomatch hmissing.symm.trans (halone (by simpa using h))
  refine ⟨hmakes, fun turn ↦ ?_, fun turn ↦ ?_⟩
  · rcases side.eq_or_eq_opposite turn with rfl | rfl
    · exact hcall
    · exact hother
  · rcases side.eq_or_eq_opposite turn with rfl | rfl
    · exact halone
    · rw [side.opposite_opposite]
      exact hcontra

theorem of_request {call : MkdirCall} {after : MkdirServer}
    (hrequest : (race.call side).request race.server = (call, after))
    (hmakes : Makes path perms ahead after) (hcall : call.Follows ahead after)
    (hother : (race.call side.opposite).Follows ahead after)
    (halone : call.missing = true → (race.call side.opposite).missing = false) :
    Advances path perms (MkdirRace.step side race).2 ahead := by
  refine of_side side ?_ ?_ ?_ ?_
  · rwa [step_server, hrequest]
  · rwa [step_call, step_server, hrequest]
  · rwa [step_opposite, step_server, hrequest]
  · rwa [step_call, step_opposite, hrequest]

/-- The level that was found missing is made. -/
theorem step_mkdir (h : Advances path perms race (level :: rest))
    (hmissing : (race.call side).missing = true) :
    Advances path perms (MkdirRace.step side race).2 rest := by
  obtain ⟨other, others, htodo, hahead, hfalse⟩ := (h.call side).pending hmissing
  obtain ⟨rfl, rfl⟩ := List.cons.inj (hahead.trans htodo)
  have hresult := (h.call side).result_eq_none (by simp [htodo])
  have hrequest := MkdirCall.request_mkdir race.server hresult htodo hmissing
  rcases makes_cons h.makes with ⟨htrue, -⟩ | ⟨-, hmade⟩
  · exact nomatch htrue.symm.trans hfalse
  · obtain ⟨after, hmkdir, hmakes⟩ := hmade (race.call side).perms
    rw [hmkdir] at hrequest
    rcases tryMkdir_cases level (race.call side).perms race.server with
      ⟨info, herror⟩ | ⟨other, hok, -, hlevel, hkept⟩
    · exact nomatch hmkdir.symm.trans herror
    · obtain ⟨-, rfl⟩ := Prod.mk.inj (hmkdir.symm.trans hok)
      refine of_request hrequest hmakes ?_ ?_ fun hgoOn ↦ nomatch hgoOn
      · exact MkdirCall.follows_nil_goOn
      · exact (h.call side.opposite).passed (h.alone side hmissing) hkept hlevel

/-- The first of the levels ahead is found, or found missing. -/
theorem step_stat (h : Advances path perms race (level :: rest)) (hfree : ¬ Overlaps race side)
    (htodo : (race.call side).todo = level :: rest)
    (hmissing : (race.call side).missing = false) :
    ∃ ahead, Advances path perms (MkdirRace.step side race).2 ahead := by
  have hresult := (h.call side).result_eq_none (by simp [htodo])
  have hrequest := MkdirCall.request_stat race.server hresult htodo hmissing
  rcases makes_cons h.makes with ⟨htrue, hmakes⟩ | ⟨hfalse, -⟩
  · rw [htrue] at hrequest
    have hother : (race.call side.opposite).missing = false := by
      by_contra hpending
      obtain ⟨other, others, hother, hahead, hfalse⟩ :=
        (h.call side.opposite).pending (by simpa using hpending)
      obtain ⟨rfl, rfl⟩ := List.cons.inj (hahead.trans hother)
      exact nomatch htrue.symm.trans hfalse
    refine ⟨rest, of_request hrequest hmakes MkdirCall.follows_nil_goOn ?_ fun _ ↦ hother⟩
    exact (h.call side.opposite).passed hother (fun _ hlevel ↦ hlevel) htrue
  · rw [hfalse] at hrequest
    refine ⟨level :: rest, of_request hrequest h.makes ?_ (h.call side.opposite) fun _ ↦ ?_⟩
    · exact ⟨(h.call side).behind, (h.call side).result,
        fun _ ↦ ⟨level, rest, htodo, htodo.symm, hfalse⟩⟩
    · -- Otherwise the other client has asked for this level before.
      by_contra hpending
      have hpending' : (race.call side.opposite).missing = true := by simpa using hpending
      obtain ⟨other, others, hother, hahead, -⟩ := (h.call side.opposite).pending hpending'
      refine hfree ⟨hresult, hmissing, ?_, hpending', by rw [← hahead, htodo]⟩
      exact (h.call side.opposite).result_eq_none (by simp [hother])

/-- A level that the other client has passed is found. -/
theorem step_behind (h : Advances path perms race ahead) {behind : List Bytes}
    (htodo : (race.call side).todo = level :: behind ++ ahead)
    (hbehind : ∀ other ∈ level :: behind, tryExists other race.server = .ok true) :
    Advances path perms (MkdirRace.step side race).2 ahead := by
  have hresult := (h.call side).result_eq_none (by simp [htodo])
  have hmissing : (race.call side).missing = false := by
    by_contra hpending
    obtain ⟨other, others, hother, -, hfalse⟩ := (h.call side).pending (by simpa using hpending)
    obtain ⟨rfl, -⟩ := List.cons.inj (htodo.symm.trans hother)
    exact nomatch (hbehind level List.mem_cons_self).symm.trans hfalse
  have hrequest := MkdirCall.request_stat race.server hresult htodo hmissing
  rw [hbehind level List.mem_cons_self] at hrequest
  refine of_request hrequest h.makes ?_ (h.call side.opposite) fun hgoOn ↦ nomatch hgoOn
  exact MkdirCall.follows_goOn fun other hother ↦ hbehind other (List.mem_cons_of_mem _ hother)

/-- A request that is not in the way of the other client brings the two on. -/
theorem step (h : Advances path perms race ahead) (hfree : ¬ Overlaps race side) :
    ∃ ahead, Advances path perms (MkdirRace.step side race).2 ahead := by
  obtain ⟨behind, htodo, hbehind⟩ := (h.call side).behind
  rcases behind with _ | ⟨passed, behind⟩
  · rcases ahead with _ | ⟨level, rest⟩
    · refine ⟨[], of_request (MkdirCall.request_of_nil htodo) h.makes ?_ ?_ ?_⟩
      · exact h.call side
      · exact h.call side.opposite
      · exact h.alone side
    · cases hmissing : (race.call side).missing with
      | true => exact ⟨rest, h.step_mkdir hmissing⟩
      | false => exact h.step_stat hfree htodo hmissing
  · exact ⟨ahead, h.step_behind htodo hbehind⟩

end Advances

theorem advances_start {server : MkdirServer} (hpermits : Permits path perms server)
    (leftPerms rightPerms : UInt32) :
    Advances path perms (start server path leftPerms rightPerms) (levels path) :=
  .of_side .left hpermits MkdirCall.follows_nil_goOn MkdirCall.follows_nil_goOn fun _ ↦ rfl

/-- Each request of a client is one less that it has to send. -/
theorem requestsLeft_le (side : Side) (schedule : List Side) (race : MkdirRace) :
    ((stateAfter step schedule race).call side).requestsLeft ≤
      (race.call side).requestsLeft - schedule.count side := by
  induction schedule generalizing race with
  | nil => exact le_rfl
  | cons turn schedule ih =>
    rw [stateAfter_cons]
    refine (ih _).trans ?_
    by_cases hturn : turn = side
    · subst hturn
      have hrequest := MkdirCall.requestsLeft_request_le (race.call turn) race.server
      rw [step_call, List.count_cons_self]
      omega
    · rw [call_step_of_ne hturn, List.count_cons_of_ne hturn]

/-- When both clients have sent all their requests, both have succeeded. -/
theorem Advances.bothMade (h : Advances path perms race ahead)
    (hleft : ∀ side, (race.call side).requestsLeft = 0) : BothMade path race := by
  have htodo : ∀ side, (race.call side).todo = [] := fun side ↦
    (h.call side).todo_eq_nil (hleft side)
  have hresult : ∀ side, (race.call side).result = some (.ok ()) := by
    intro side
    rw [(h.call side).result, if_pos (htodo side)]
  obtain ⟨behind, hbehind, -⟩ := (h.call .left).behind
  obtain ⟨-, rfl⟩ := List.append_eq_nil_iff.mp (hbehind.symm.trans (htodo .left))
  exact ⟨hresult .left, hresult .right, h.makes.2⟩

end MkdirRace

/-! ### A request in the way of the other client -/

/-- The call fails, or will when it tries to make a level that exists. -/
def MkdirCall.Lost (server : MkdirServer) (call : MkdirCall) : Prop :=
  (∃ info, call.result = some (.error info)) ∨
    ∃ level rest, call.result = none ∧ call.todo = level :: rest ∧ call.missing = true ∧
      tryExists level server = .ok true

/-- The call is about to make this level. -/
def MkdirCall.IsMaking (level : Bytes) (call : MkdirCall) : Prop :=
  ∃ rest, call.result = none ∧ call.todo = level :: rest ∧ call.missing = true

namespace MkdirCall

variable {call : MkdirCall} {server after : MkdirServer} {level : Bytes}

/-- No request removes a level. -/
theorem tryExists_request (h : tryExists level server = .ok true) :
    tryExists level (call.request server).2 = .ok true := by
  cases hresult : call.result with
  | some result => rwa [request_of_result hresult]
  | none =>
    cases htodo : call.todo with
    | nil => rwa [request_of_nil htodo]
    | cons first rest =>
      cases hmissing : call.missing with
      | true =>
        rw [request_mkdir server hresult htodo hmissing]
        rcases tryMkdir_cases first call.perms server with
          ⟨info, hmkdir⟩ | ⟨after, hmkdir, -, -, hkept⟩
        · rwa [hmkdir]
        · rw [hmkdir]
          exact hkept level h
      | false =>
        rw [request_stat server hresult htodo hmissing]
        rcases tryExists first server with info | _ | _ <;> exact h

theorem Lost.kept (h : call.Lost server)
    (hkept : ∀ level, tryExists level server = .ok true → tryExists level after = .ok true) :
    call.Lost after := by
  rcases h with hfailed | ⟨level, rest, hresult, htodo, hmissing, hexists⟩
  · exact .inl hfailed
  · exact .inr ⟨level, rest, hresult, htodo, hmissing, hkept level hexists⟩

theorem Lost.request (h : call.Lost server) :
    (call.request server).1.Lost (call.request server).2 := by
  rcases h with ⟨info, hfailed⟩ | ⟨level, rest, hresult, htodo, hmissing, hexists⟩
  · rw [request_of_result hfailed]
    exact .inl ⟨info, hfailed⟩
  · rw [request_mkdir server hresult htodo hmissing]
    rcases tryMkdir_cases level call.perms server with ⟨info, hmkdir⟩ | ⟨after, -, habsent, -⟩
    · rw [hmkdir]
      exact .inl ⟨info, rfl⟩
    · exact absurd hexists habsent

/-- Either the level is made, or the call fails. -/
theorem IsMaking.request (h : call.IsMaking level) (server : MkdirServer) :
    tryExists level (call.request server).2 = .ok true ∨
      (call.request server).1.Lost (call.request server).2 := by
  obtain ⟨rest, hresult, htodo, hmissing⟩ := h
  rw [request_mkdir server hresult htodo hmissing]
  rcases tryMkdir_cases level call.perms server with ⟨info, hmkdir⟩ | ⟨after, hmkdir, -, hexists, -⟩
  · rw [hmkdir]
    exact .inr (.inl ⟨info, rfl⟩)
  · rw [hmkdir]
    exact .inl hexists

theorem IsMaking.lost (h : call.IsMaking level) (hexists : tryExists level server = .ok true) :
    call.Lost server := by
  obtain ⟨rest, hresult, htodo, hmissing⟩ := h
  exact .inr ⟨level, rest, hresult, htodo, hmissing, hexists⟩

theorem Lost.result_ne (h : call.Lost server) : call.result ≠ some (.ok ()) := by
  intro hresult
  rcases h with ⟨info, hfailed⟩ | ⟨level, rest, hnone, -⟩
  · exact nomatch hresult.symm.trans hfailed
  · exact nomatch hresult.symm.trans hnone

end MkdirCall

namespace MkdirRace

variable {race : MkdirRace} {side : Side} {path level : Bytes} {perms : UInt32}
  {ahead : List Bytes} {schedule : List Side}

/-- One of the calls fails, or both are about to make one level. -/
def Doomed (race : MkdirRace) : Prop :=
  (∃ side, (race.call side).Lost race.server) ∨ ∃ level, ∀ side, (race.call side).IsMaking level

theorem Doomed.step (h : Doomed race) (side : Side) : Doomed (step side race).2 := by
  have hkept : ∀ level, tryExists level race.server = .ok true →
      tryExists level (MkdirRace.step side race).2.server = .ok true := by
    intro level hexists
    rw [step_server]
    exact MkdirCall.tryExists_request hexists
  rcases h with ⟨turn, hlost⟩ | ⟨level, hmaking⟩
  · refine .inl ⟨turn, ?_⟩
    by_cases hturn : side = turn
    · subst hturn
      rw [step_call, step_server]
      exact hlost.request
    · rw [call_step_of_ne hturn]
      exact hlost.kept hkept
  · rcases (hmaking side).request race.server with hexists | hlost
    · refine .inl ⟨side.opposite, ?_⟩
      rw [step_opposite, step_server]
      exact (hmaking side.opposite).lost hexists
    · refine .inl ⟨side, ?_⟩
      rw [step_call, step_server]
      exact hlost

/-- A client that asks for a level which the other is about to make finds it missing, too. -/
theorem Advances.doomed (h : Advances path perms race ahead) (hoverlaps : Overlaps race side) :
    Doomed (MkdirRace.step side race).2 := by
  obtain ⟨hresult, hmissing, hresult', hmissing', hhead⟩ := hoverlaps
  obtain ⟨level, others, hother, -, hfalse⟩ := (h.call side.opposite).pending hmissing'
  rw [hother] at hhead
  obtain ⟨rest, htodo⟩ := List.head?_eq_some_iff.mp hhead
  have hmaking : (MkdirRace.step side race).2.call side =
      { race.call side with missing := true } := by
    rw [step_call, MkdirCall.request_stat race.server hresult htodo hmissing, hfalse]
  refine .inr ⟨level, fun turn ↦ ?_⟩
  rcases side.eq_or_eq_opposite turn with rfl | rfl
  · rw [hmaking]
    exact ⟨rest, hresult, htodo, rfl⟩
  · rw [step_opposite]
    exact ⟨others, hresult', hother, hmissing'⟩

theorem Doomed.not_bothMade (h : Doomed race) : ¬ BothMade path race := by
  rintro ⟨hleft, hright, -⟩
  have hresult : ∀ side, (race.call side).result = some (.ok ()) := by
    intro side
    cases side with
    | left => exact hleft
    | right => exact hright
  rcases h with ⟨side, hlost⟩ | ⟨level, hmaking⟩
  · exact hlost.result_ne (hresult side)
  · obtain ⟨rest, hnone, -⟩ := hmaking .left
    exact nomatch hleft.symm.trans hnone

/-! ### All schedules -/

theorem Advances.stateAfter (h : Advances path perms race ahead)
    (hallowed : Allowed MkdirRace.step (fun race side ↦ ¬ Overlaps race side) schedule race) :
    ∃ ahead, Advances path perms (stateAfter MkdirRace.step schedule race) ahead := by
  have hstep : ∀ side, Triple
      (fun race ↦ (∃ ahead, Advances path perms race ahead) ∧ ¬ Overlaps race side)
      (MkdirRace.step side) fun _ race ↦ ∃ ahead, Advances path perms race ahead := by
    intro side race ⟨⟨ahead, hrace⟩, hfree⟩
    exact hrace.step hfree
  exact invariant_of_allowed hstep hallowed ⟨ahead, h⟩ List.prefix_rfl

theorem Doomed.stateAfter (h : Doomed race) (schedule : List Side) :
    Doomed (stateAfter MkdirRace.step schedule race) :=
  invariant_of_keeps (fun side _ hrace ↦ hrace.step side) schedule h

theorem Advances.allowed (h : Advances path perms race ahead)
    (hmade : BothMade path (Program.stateAfter MkdirRace.step schedule race)) :
    Allowed MkdirRace.step (fun race side ↦ ¬ Overlaps race side) schedule race := by
  induction schedule generalizing race ahead with
  | nil => trivial
  | cons side schedule ih =>
    have hfree : ¬ Overlaps race side := fun hoverlaps ↦
      ((h.doomed hoverlaps).stateAfter schedule).not_bothMade hmade
    obtain ⟨ahead, hnext⟩ := h.step hfree
    exact ⟨hfree, ih hnext hmade⟩

end MkdirRace

/-- Assumes: a tree that permits the creation of the path, and a schedule in which both clients
send all their requests. Both calls succeed and the path is a directory exactly when no client
asks for a level between the request with which the other found it missing and the one
with which it makes it. -/
theorem tryMkdirP_bothMade_iff {path : Bytes} {perms : UInt32} {server : MkdirServer}
    (hpermits : Permits path perms server) (leftPerms rightPerms : UInt32) {schedule : List Side}
    (hserved : ∀ side, 2 * (levels path).length ≤ schedule.count side) :
    BothMade path
        (stateAfter MkdirRace.step schedule (.start server path leftPerms rightPerms)) ↔
      Allowed MkdirRace.step (fun race side ↦ ¬ Overlaps race side) schedule
        (.start server path leftPerms rightPerms) := by
  have hstart := MkdirRace.advances_start hpermits leftPerms rightPerms
  constructor
  · exact hstart.allowed
  · intro hallowed
    obtain ⟨ahead, hend⟩ := hstart.stateAfter hallowed
    refine hend.bothMade fun side ↦ ?_
    have hleft := MkdirRace.requestsLeft_le side schedule
      (MkdirRace.start server path leftPerms rightPerms)
    have hcall : ((MkdirRace.start server path leftPerms rightPerms).call side).requestsLeft ≤
        2 * (levels path).length := by
      cases side <;> exact MkdirCall.requestsLeft_goOn_le
    have hcount := hserved side
    omega

/-- A server without files, which answers the errors of a call with one status. -/
def bareServer : MkdirServer where
  fs := emptyDisk
  statStatus _ := ⟨sshFxNoSuchFile, sshFxNoSuchFile_ne⟩
  mkdirStatus _ := ⟨sshFxFailure, sshFxFailure_ne⟩

/-- The clients make two levels, each in its turn. -/
theorem tryMkdirP_bothMade_turns :
    BothMade (ascii "/a/b") (stateAfter MkdirRace.step
      [.left, .left, .right, .left, .left, .right, .right, .right]
      (.start bareServer (ascii "/a/b") 0o755 0o700)) := by
  have hpermits : Permits (ascii "/a/b") 0o755 bareServer :=
    ⟨by decide +kernel, [ascii "a", ascii "b"], by decide +kernel, by decide +kernel⟩
  refine (tryMkdirP_bothMade_iff hpermits 0o755 0o700 fun side ↦ ?_).mpr ?_
  · cases side <;> decide +kernel
  · simp only [Allowed, Overlaps]
    decide +kernel

/-- Both clients find the level missing, and the one that is later to make it fails. -/
theorem tryMkdirP_race_fails :
    Permits (ascii "/a") 0o755 bareServer ∧
      (∀ side, 2 * (levels (ascii "/a")).length ≤
        [Side.left, .right, .left, .right].count side) ∧
      (stateAfter MkdirRace.step [.left, .right, .left, .right]
        (.start bareServer (ascii "/a") 0o755 0o755)).right.result =
          some (.error (makeSftpErrorInfo sshFxFailure {} "sftp_mkdir")) ∧
      ¬ BothMade (ascii "/a") (stateAfter MkdirRace.step [.left, .right, .left, .right]
        (.start bareServer (ascii "/a") 0o755 0o755)) := by
  have hright : (stateAfter MkdirRace.step [.left, .right, .left, .right]
      (.start bareServer (ascii "/a") 0o755 0o755)).right.result =
        some (.error (makeSftpErrorInfo sshFxFailure {} "sftp_mkdir")) := by decide +kernel
  refine ⟨⟨by decide +kernel, [ascii "a"], by decide +kernel, by decide +kernel⟩,
    fun side ↦ ?_, hright, ?_⟩
  · cases side <;> decide +kernel
  · rintro ⟨-, hmade, -⟩
    exact nomatch hright.symm.trans hmade

end LibSshpp.Sftp
