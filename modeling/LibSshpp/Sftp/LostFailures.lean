import LibSshpp.Sftp.Directory
import LibSshpp.Sftp.WriteBehind

/-!
Failures that arrive with the status `SSH_FX_OK`, as they do when the transport
broke and not the request. `make_sftp_error_info` copies the status into an error
that counts as unset, and both `try_list` and `try_flush` ask whether their error
is set to know whether there was one.
-/

set_option autoImplicit false
set_option relaxedAutoImplicit false

namespace LibSshpp.Sftp

open Program

/-! ### Listings -/

/-- The listing opens its directory and reads entries until a read fails with this
status. -/
def ListingSession.ReadFails (sftp : ListingSession) (status : ℤ) : Prop :=
  sftp.isOpen = true ∧ sftp.refusal = none ∧ ∃ (entries : List NativeAttributes)
    (rest : List Readdir), sftp.outcomes = entries.map .entry ++ .failed status :: rest

/-- A listing that stops on a failed read returns an error. -/
def ListingSession.ReportsFailedRead (sftp : ListingSession) : Prop :=
  ∀ status, sftp.ReadFails status → ∃ info, sftp.tryList = .error info

namespace ListingSession

theorem failureStatus_eq_some_iff (outcomes : List Readdir) (status : ℤ) :
    failureStatus outcomes = some status ↔ ∃ (entries : List NativeAttributes)
      (rest : List Readdir), outcomes = entries.map .entry ++ .failed status :: rest := by
  constructor
  · intro h
    induction outcomes with
    | nil => exact nomatch h
    | cons outcome outcomes ih =>
      cases outcome with
      | entry raw =>
        obtain ⟨entries, rest, rfl⟩ := ih h
        exact ⟨raw :: entries, rest, rfl⟩
      | endOfDirectory => exact nomatch h
      | failed failed =>
        obtain rfl := Option.some.inj h
        exact ⟨[], outcomes, rfl⟩
  · rintro ⟨entries, rest, rfl⟩
    induction entries with
    | nil => rfl
    | cons raw entries ih => exact ih

/-- On an opened directory the failed read is reported exactly when its status is
not zero. -/
theorem tryList_error_iff {sftp : ListingSession} {status : ℤ} (h : sftp.ReadFails status) :
    (∃ info, sftp.tryList = .error info) ↔ status ≠ 0 := by
  obtain ⟨hopen, hrefusal, hentries⟩ := h
  have hfailure := (failureStatus_eq_some_iff sftp.outcomes status).mpr hentries
  have hset := errorAfter_isSet sftp.outcomes
  rw [tryList_eq hopen hrefusal]
  by_cases hzero : status = 0
  · have hunset : ¬ (errorAfter sftp.outcomes).isSet = true := by
      rw [hset]
      rintro ⟨status', hstatus', hne⟩
      exact hne ((Option.some.inj (hstatus'.symm.trans hfailure)).trans hzero)
    rw [if_neg hunset]
    exact iff_of_false (fun ⟨info, hinfo⟩ ↦ nomatch hinfo) fun hne ↦ hne hzero
  · rw [if_pos (hset.mpr ⟨status, hfailure, hzero⟩)]
    exact iff_of_true ⟨_, rfl⟩ hzero

theorem reportsFailedRead_iff (sftp : ListingSession) :
    sftp.ReportsFailedRead ↔ ¬ sftp.ReadFails 0 := by
  constructor
  · intro h hfails
    exact (tryList_error_iff hfails).mp (h 0 hfails) rfl
  · intro h status hfails
    refine (tryList_error_iff hfails).mpr fun hzero ↦ ?_
    subst hzero
    exact h hfails

end ListingSession

/-! ### Flushes -/

namespace WriteBehind

/-- The statuses of the writes in flight that will turn out to have failed. -/
def failingStatuses (writer : WriteBehind) : List ℤ :=
  (writer.file.replies.take writer.inflight.length).filterMap fun reply ↦ failure (some reply)

/-- The events a flush adds to the trace. -/
def drainedBy (writer : WriteBehind) : List AioEvent :=
  (tryFlush writer).2.trace.drop writer.trace.length

/-- A flush that drains a failed write returns an error. -/
def ReportsDrainedFailure (writer : WriteBehind) : Prop :=
  ∀ write status, .done write (some status) ∈ writer.drainedBy →
    ∃ info, (tryFlush writer).1 = .error info

/-- What waiting for these requests brings with these replies. -/
def waitEvents : List (Write UInt8) → List Reply → List AioEvent
  | [], _ => []
  | write :: inflight, replies =>
    .done write (failure replies.head?) :: waitEvents inflight replies.tail

/-- An event of a failed write whose status satisfies the condition. -/
def HasFailure (events : List AioEvent) (condition : ℤ → Prop) : Prop :=
  ∃ write status, .done write (some status) ∈ events ∧ condition status

theorem hasFailure_waitEvents_cons (write : Write UInt8) (inflight : List (Write UInt8))
    (replies : List Reply) (condition : ℤ → Prop) :
    HasFailure (waitEvents (write :: inflight) replies) condition ↔
      (∃ status, failure replies.head? = some status ∧ condition status) ∨
        HasFailure (waitEvents inflight replies.tail) condition := by
  constructor
  · rintro ⟨other, status, hmem, hstatus⟩
    rcases List.mem_cons.mp hmem with hfirst | hlater
    · exact .inl ⟨status, (AioEvent.done.inj hfirst).2.symm, hstatus⟩
    · exact .inr ⟨other, status, hlater, hstatus⟩
  · rintro (⟨status, hfirst, hstatus⟩ | ⟨other, status, hmem, hstatus⟩)
    · exact ⟨write, status, List.mem_cons.mpr (.inl (by rw [hfirst])), hstatus⟩
    · exact ⟨other, status, List.mem_cons.mpr (.inr hmem), hstatus⟩

theorem hasFailure_waitEvents (inflight : List (Write UInt8)) (replies : List Reply)
    (condition : ℤ → Prop) :
    HasFailure (waitEvents inflight replies) condition ↔
      ∃ status ∈ (replies.take inflight.length).filterMap fun reply ↦ failure (some reply),
        condition status := by
  induction inflight generalizing replies with
  | nil => simp [HasFailure, waitEvents]
  | cons write inflight ih =>
    rw [hasFailure_waitEvents_cons, ih]
    cases replies with
    | nil => simp [failure]
    | cons reply replies => cases reply <;> simp [failure]

/-- The flush waits for everything in flight and keeps the first error that was set. -/
theorem flushLoop_spec (inflight : List (Write UInt8)) :
    ∀ (writer : WriteBehind) (firstError : ErrorInfo), writer.inflight = inflight →
      (flushLoop inflight.length firstError writer).2.trace =
          writer.trace ++ waitEvents inflight writer.file.replies ∧
        ((flushLoop inflight.length firstError writer).1.isSet = true ↔
          firstError.isSet = true ∨
            HasFailure (waitEvents inflight writer.file.replies) (· ≠ 0)) := by
  induction inflight with
  | nil =>
    intro writer firstError _
    refine ⟨(List.append_nil _).symm, ?_⟩
    simp [HasFailure, waitEvents, flushLoop, pure, stateT_pure]
  | cons write inflight ih =>
    intro writer firstError hinflight
    have hdrain := drainOne_cons hinflight
    have htrace : (writer.waitedFor write inflight).trace ++
        waitEvents inflight (writer.waitedFor write inflight).file.replies =
          writer.trace ++ waitEvents (write :: inflight) writer.file.replies := by
      rw [waitEvents, waitedFor, List.append_assoc, List.singleton_append]
    rw [hasFailure_waitEvents_cons]
    cases hfailure : failure writer.file.replies.head? with
    | none =>
      rw [hfailure] at hdrain
      have hgo : flushLoop (write :: inflight).length firstError writer =
          flushLoop inflight.length firstError (writer.waitedFor write inflight) :=
        bind_of_eq hdrain
      obtain ⟨hlater, hset⟩ := ih (writer.waitedFor write inflight) firstError rfl
      rw [hgo]
      refine ⟨hlater.trans htrace, hset.trans ?_⟩
      simp [waitedFor]
    | some status =>
      rw [hfailure] at hdrain
      have hgo : flushLoop (write :: inflight).length firstError writer =
          flushLoop inflight.length (if firstError.isSet then firstError
            else makeSftpErrorInfo status {} "sftp_aio_wait_write")
            (writer.waitedFor write inflight) :=
        bind_of_eq hdrain
      obtain ⟨hlater, hset⟩ := ih (writer.waitedFor write inflight) _ rfl
      rw [hgo]
      refine ⟨hlater.trans htrace, hset.trans ?_⟩
      by_cases hfirst : firstError.isSet = true
      · simp [hfirst]
      · simp [hfirst, makeSftpErrorInfo_isSet, waitedFor]

theorem tryFlush_eq (writer : WriteBehind) {firstError : ErrorInfo} {after : WriteBehind}
    (h : flushLoop writer.inflight.length { code := .ssh .ok } writer = (firstError, after)) :
    tryFlush writer = (if firstError.isSet then .error firstError else .ok (), after) := by
  simp only [tryFlush, h]
  split_ifs <;> rfl

theorem drainedBy_eq (writer : WriteBehind) :
    writer.drainedBy = waitEvents writer.inflight writer.file.replies := by
  obtain ⟨htrace, -⟩ := flushLoop_spec writer.inflight writer { code := .ssh .ok } rfl
  rw [drainedBy, tryFlush_eq writer rfl, htrace, List.drop_left]

theorem tryFlush_error_iff (writer : WriteBehind) :
    (∃ info, (tryFlush writer).1 = .error info) ↔
      ∃ status ∈ writer.failingStatuses, status ≠ 0 := by
  obtain ⟨-, hset⟩ := flushLoop_spec writer.inflight writer { code := .ssh .ok } rfl
  rw [hasFailure_waitEvents] at hset
  rw [tryFlush_eq writer rfl]
  split_ifs with herror
  · refine iff_of_true ⟨_, rfl⟩ ((hset.mp herror).resolve_left ?_)
    simp [ErrorInfo.isSet]
  · refine iff_of_false ?_ fun hfailure ↦ herror (hset.mpr (.inr hfailure))
    rintro ⟨info, hinfo⟩
    cases hinfo

theorem reportsDrainedFailure_iff (writer : WriteBehind) :
    writer.ReportsDrainedFailure ↔
      (writer.failingStatuses ≠ [] → ∃ status ∈ writer.failingStatuses, status ≠ 0) := by
  have hdrained : (∃ write status, .done write (some status) ∈ writer.drainedBy) ↔
      writer.failingStatuses ≠ [] := by
    have hany := hasFailure_waitEvents writer.inflight writer.file.replies fun _ ↦ True
    rw [← drainedBy_eq] at hany
    rw [Ne, List.eq_nil_iff_forall_not_mem, not_forall_not]
    simpa only [HasFailure, failingStatuses, and_true] using hany
  rw [← tryFlush_error_iff, ← hdrained]
  constructor
  · rintro h ⟨write, status, hmem⟩
    exact h write status hmem
  · intro h write status hmem
    exact h ⟨write, status, hmem⟩

end WriteBehind

/-! ### Both -/

/-- For every listing and every flush: the listing reports the failed read that
stopped it if and only if that read did not fail with status zero, and the flush
reports a failed write it drained if and only if, when writes in flight fail, one of
them fails with a status other than zero. -/
theorem failures_reported_iff (sftp : ListingSession) (writer : WriteBehind) :
    (sftp.ReportsFailedRead ↔ ¬ sftp.ReadFails 0) ∧
      (writer.ReportsDrainedFailure ↔
        (writer.failingStatuses ≠ [] → ∃ status ∈ writer.failingStatuses, status ≠ 0)) :=
  ⟨sftp.reportsFailedRead_iff, writer.reportsDrainedFailure_iff⟩

/-- A directory whose second read fails because the connection broke. -/
def brokenListing : ListingSession where
  outcomes := [.entry { name := some (ascii "a"), type := typeRegular }, .failed 0]

/-- One write in flight when the connection broke. -/
def brokenWriter : WriteBehind where
  file := { maxLength_pos := maxLength_default_pos, replies := [.failure 0] }
  chunk := 8
  depth := 2
  inflight := [{ offset := 0, data := ascii "data" }]
  trace := [.begun { offset := 0, data := ascii "data" }]

/-- The listing succeeds with the entries it got, and the flush succeeds. -/
theorem broken_connection_unreported :
    ¬ brokenListing.ReportsFailedRead ∧ ¬ brokenWriter.ReportsDrainedFailure := by
  constructor
  · intro h
    obtain ⟨info, hinfo⟩ := h 0 ⟨rfl, rfl, [{ name := some (ascii "a"), type := typeRegular }], [],
      rfl⟩
    exact nomatch hinfo
  · intro h
    obtain ⟨info, hinfo⟩ := h { offset := 0, data := ascii "data" } 0 (by decide +kernel)
    exact nomatch hinfo

end LibSshpp.Sftp
