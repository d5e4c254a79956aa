import LibSshpp.Foundation.Bytes
import LibSshpp.Foundation.Error
import LibSshpp.Program.StateTriple
import LibSshpp.Sftp.Attributes

/-!
`Directory` and the listings made from it. `Directory::next` says by `nullopt`
that there is nothing more, at the end of the directory as well as after a failed
`sftp_readdir`, and keeps the error of the latter for `last_error`.
-/

set_option autoImplicit false
set_option relaxedAutoImplicit false

namespace LibSshpp.Sftp

open Program

/-- One outcome of `sftp_readdir`: an entry, or null at the end of the directory, or
null for a failure, with what `sftp_get_error` holds then. -/
inductive Readdir
  | entry (raw : NativeAttributes)
  | endOfDirectory
  | failed (status : ℤ)
  deriving DecidableEq, Repr

/-- A `Directory` with the outcomes its reads will have; there is nothing to read
beyond them. -/
structure Directory where
  native : Bool := true
  outcomes : List Readdir := []
  lastError : ErrorInfo := { code := .ssh .ok }
  deriving DecidableEq, Repr

/-- `Directory::next`. -/
def Directory.next : StateM Directory (Option Attributes) := fun directory ↦
  if directory.native = false then (none, directory)
  else
    let after := { directory with outcomes := directory.outcomes.tail }
    match directory.outcomes.head? with
    | some (.entry raw) => (some (attributesFromNative raw), after)
    | some (.failed status) =>
      (none, { after with lastError := makeSftpErrorInfo status {} "sftp_readdir" })
    | some .endOfDirectory | none => (none, after)

/-- An `Sftp` session as one listing meets it: the status with which the server
refuses to open the directory, if it does, and the outcomes of the reads. -/
structure ListingSession where
  isOpen : Bool := true
  refusal : Option ℤ := none
  lastError : SshError := {}
  outcomes : List Readdir := []
  deriving DecidableEq, Repr

namespace ListingSession

/-- `Sftp::try_open_directory`. -/
def tryOpenDirectory (sftp : ListingSession) : Result Directory :=
  if sftp.isOpen = false then
    .error { code := .ssh .invalidHandle, operation := "Sftp::try_open_directory" }
  else match sftp.refusal with
    | some status => .error (makeSftpErrorInfo status sftp.lastError "sftp_opendir")
    | none => .ok { outcomes := sftp.outcomes }

def isDotEntry (attributes : Attributes) : Bool :=
  attributes.name = ascii "." || attributes.name = ascii ".."

/-- The loop of `try_list`. Each round but the last one consumes an outcome. -/
def listLoop : ℕ → List Attributes → StateM Directory (List Attributes)
  | 0, result => pure result
  | rounds + 1, result => do
    match ← Directory.next with
    | none => pure result
    | some entry => listLoop rounds (if isDotEntry entry then result else result ++ [entry])

/-- `Sftp::try_list`. -/
def tryList (sftp : ListingSession) : Result (List Attributes) :=
  match sftp.tryOpenDirectory with
  | .error info => .error info
  | .ok directory =>
    let (result, directory) := listLoop (directory.outcomes.length + 1) [] directory
    if directory.lastError.isSet then .error directory.lastError else .ok result

/-! ### What a listing delivers -/

/-- The entries before the outcome that ends the listing. -/
def entriesBefore : List Readdir → List Attributes
  | [] => []
  | .entry raw :: outcomes => attributesFromNative raw :: entriesBefore outcomes
  | .endOfDirectory :: _ => []
  | .failed _ :: _ => []

/-- The status of the failed read that ends the listing, if one does. -/
def failureStatus : List Readdir → Option ℤ
  | [] => none
  | .entry _ :: outcomes => failureStatus outcomes
  | .endOfDirectory :: _ => none
  | .failed status :: _ => some status

/-- The error a listing leaves in `last_error`. -/
def errorAfter (outcomes : List Readdir) : ErrorInfo :=
  match failureStatus outcomes with
  | some status => makeSftpErrorInfo status {} "sftp_readdir"
  | none => { code := .ssh .ok }

theorem next_cons (outcome : Readdir) (outcomes : List Readdir) (lastError : ErrorInfo) :
    Directory.next { outcomes := outcome :: outcomes, lastError } =
      match outcome with
      | .entry raw => (some (attributesFromNative raw), { outcomes, lastError })
      | .failed status =>
        (none, { outcomes, lastError := makeSftpErrorInfo status {} "sftp_readdir" })
      | .endOfDirectory => (none, { outcomes, lastError }) := by
  cases outcome <;> rfl

theorem listLoop_spec (outcomes : List Readdir) (result : List Attributes) :
    ∃ rest, listLoop (outcomes.length + 1) result { outcomes } =
      (result ++ (entriesBefore outcomes).filter fun entry ↦ !isDotEntry entry,
        { outcomes := rest, lastError := errorAfter outcomes }) := by
  induction outcomes generalizing result with
  | nil =>
    refine ⟨[], ?_⟩
    rw [entriesBefore, List.filter_nil, List.append_nil]
    rfl
  | cons outcome outcomes ih =>
    rw [listLoop]
    cases outcome with
    | entry raw =>
      obtain ⟨rest, hrest⟩ := ih (if isDotEntry (attributesFromNative raw) then result
        else result ++ [attributesFromNative raw])
      refine ⟨rest, ?_⟩
      rw [bind_of_eq (next_cons (.entry raw) outcomes _)]
      refine hrest.trans (Prod.ext ?_ rfl)
      by_cases hdot : isDotEntry (attributesFromNative raw) = true
      · simp [entriesBefore, hdot]
      · simp [entriesBefore, hdot]
    | endOfDirectory =>
      refine ⟨outcomes, ?_⟩
      rw [entriesBefore, List.filter_nil, List.append_nil]
      rfl
    | failed status =>
      refine ⟨outcomes, ?_⟩
      rw [entriesBefore, List.filter_nil, List.append_nil]
      rfl

/-- On a directory that could be opened, a listing fails with the error of the read
that ended it, if that error is set, and else delivers what came before. -/
theorem tryList_eq {sftp : ListingSession} (hopen : sftp.isOpen = true)
    (hrefusal : sftp.refusal = none) :
    sftp.tryList = if (errorAfter sftp.outcomes).isSet then .error (errorAfter sftp.outcomes)
      else .ok ((entriesBefore sftp.outcomes).filter fun entry ↦ !isDotEntry entry) := by
  have hdirectory : sftp.tryOpenDirectory = .ok { outcomes := sftp.outcomes } := by
    simp [tryOpenDirectory, hopen, hrefusal]
  obtain ⟨rest, hrest⟩ := listLoop_spec sftp.outcomes []
  rw [tryList, hdirectory]
  simp only [hrest, List.nil_append]

/-- The error of a failed read is set unless its status is zero. -/
theorem errorAfter_isSet (outcomes : List Readdir) :
    (errorAfter outcomes).isSet = true ↔ ∃ status, failureStatus outcomes = some status ∧
      status ≠ 0 := by
  unfold errorAfter
  cases hstatus : failureStatus outcomes with
  | none => simp [ErrorInfo.isSet]
  | some status => simp [makeSftpErrorInfo_isSet]

end ListingSession

end LibSshpp.Sftp
