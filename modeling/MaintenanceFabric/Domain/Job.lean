import MaintenanceFabric.Domain.Authority
import MaintenanceFabric.Domain.Lifecycle
import MaintenanceFabric.Domain.Window

/-! # Maintenance jobs

    A job is a request plus its generation, attempts, bindings and position in
    the lifecycle.  The job table accepts a replacement only when it is exactly
    one revision newer than what is stored.
-/

namespace MaintenanceFabric

open Lib

inductive BlockReason where
  | None | TargetUnknown | TargetNotMaintainable | EvidenceMissingOrStale | RedundancyViolation
  | FailureDomainLimit | ContractViolation | CapacityHeadroom | ConflictingMaintenance
  | DependencyUnmet | WindowUnavailable | AuthorityDenied | DrainFailed | DrainLeaseLost
  | AwaitingCompletionReport | VerificationFailed | RestorationFailed | ReconciledAfterRestart
  | ControlPlaneUnsafe | PolicyDenied | OperatorHold | Overflow
  deriving DecidableEq, Repr

def BlockReason.to_string : BlockReason → Text
  | .None => text "none"
  | .TargetUnknown => text "target-unknown"
  | .TargetNotMaintainable => text "target-not-maintainable"
  | .EvidenceMissingOrStale => text "evidence-missing-or-stale"
  | .RedundancyViolation => text "redundancy-violation"
  | .FailureDomainLimit => text "failure-domain-limit"
  | .ContractViolation => text "contract-violation"
  | .CapacityHeadroom => text "capacity-headroom"
  | .ConflictingMaintenance => text "conflicting-maintenance"
  | .DependencyUnmet => text "dependency-unmet"
  | .WindowUnavailable => text "window-unavailable"
  | .AuthorityDenied => text "authority-denied"
  | .DrainFailed => text "drain-failed"
  | .DrainLeaseLost => text "drain-lease-lost"
  | .AwaitingCompletionReport => text "awaiting-completion-report"
  | .VerificationFailed => text "verification-failed"
  | .RestorationFailed => text "restoration-failed"
  | .ReconciledAfterRestart => text "reconciled-after-restart"
  | .ControlPlaneUnsafe => text "control-plane-unsafe"
  | .PolicyDenied => text "policy-denied"
  | .OperatorHold => text "operator-hold"
  | .Overflow => text "overflow"

def BlockReason.code : BlockReason → Nat
  | .None => 0
  | .TargetUnknown => 1
  | .TargetNotMaintainable => 2
  | .EvidenceMissingOrStale => 3
  | .RedundancyViolation => 4
  | .FailureDomainLimit => 5
  | .ContractViolation => 6
  | .CapacityHeadroom => 7
  | .ConflictingMaintenance => 8
  | .DependencyUnmet => 9
  | .WindowUnavailable => 10
  | .AuthorityDenied => 11
  | .DrainFailed => 12
  | .DrainLeaseLost => 13
  | .AwaitingCompletionReport => 14
  | .VerificationFailed => 15
  | .RestorationFailed => 16
  | .ReconciledAfterRestart => 17
  | .ControlPlaneUnsafe => 18
  | .PolicyDenied => 19
  | .OperatorHold => 20
  | .Overflow => 21

inductive AttemptOutcome where
  | Running | Succeeded | Failed | Fenced | Cancelled
  deriving DecidableEq, Repr

structure MaintenanceRequest where
  title : Text
  reason : Text := []
  targets : List TargetId
  depends_on : List JobId := []
  window_filter : List WindowId := []
  priority : Nat := 0
  estimated_duration : Nanos := 0
  requires_drain : Bool := true
  requestor : RequestorId
  deriving DecidableEq, Repr

structure AttemptRecord where
  id : AttemptId
  started_at : Nanos := 0
  ended_at : Nanos := 0
  outcome : AttemptOutcome := .Running
  detail : Text := []
  deriving DecidableEq, Repr

structure HistoryEntry where
  at_ : Nanos := 0
  from_state : JobState
  to_state : JobState
  reason : BlockReason := .None
  detail : Text := []
  by_ : ControllerIncarnation := {}
  deriving DecidableEq, Repr

/-- What a caller is told about a job. -/
structure JobSnapshot where
  id : JobId := ⟨0⟩
  generation : GenerationId := ⟨0⟩
  revision : Revision := ⟨0⟩
  state : JobState := .Proposed
  block : BlockReason := .None
  block_detail : Text := []
  targets : List TargetId := []
  priority : Nat := 0
  service_removed : Bool := false
  overrun : Bool := false
  authority : AuthorityId := ⟨0⟩
  lease : DrainLeaseId := ⟨0⟩
  active_attempt : AttemptId := {}
  created_at : Nanos := 0
  updated_at : Nanos := 0
  deriving DecidableEq, Repr

structure MaintenanceJob where
  id : JobId := ⟨0⟩
  generation : GenerationId := ⟨1⟩
  revision : Revision := ⟨0⟩
  title : Text := []
  reason : Text := []
  targets : List TargetId := []
  removal_set : List TargetId := []
  depends_on : List JobId := []
  window_filter : List WindowId := []
  priority : Nat := 0
  estimated_duration : Nanos := 0
  requires_drain : Bool := true
  requestor : RequestorId := ⟨0⟩
  state : JobState := .Proposed
  block : BlockReason := .None
  block_detail : Text := []
  last_detail : Text := []
  policy_revision : Revision := ⟨0⟩
  topology_revision : Revision := ⟨0⟩
  policy_digest : UInt64 := 0
  topology_digest : UInt64 := 0
  authority : AuthorityId := ⟨0⟩
  lease : DrainLeaseId := ⟨0⟩
  active_attempt : AttemptId := {}
  next_attempt : AttemptOrdinal := ⟨1⟩
  attempts : List AttemptRecord := []
  history : List HistoryEntry := []
  history_dropped : Nat := 0
  service_removed : Bool := false
  overrun : Bool := false
  approved : Bool := false
  approved_by : Text := []
  created_at : Nanos := 0
  updated_at : Nanos := 0
  started_at : Nanos := 0
  completed_at : Nanos := 0
  preconditions_at : Nanos := 0
  preconditions_digest : UInt64 := 0
  preconditions_policy_revision : Revision := ⟨0⟩
  preconditions_topology_revision : Revision := ⟨0⟩
  preconditions_satisfied : Bool := false
  verification_passes : Nat := 0
  verification_failures : Nat := 0
  restoration_failures : Nat := 0
  drain_failures : Nat := 0
  verification_started_at : Nanos := 0
  restoration_started_at : Nanos := 0
  maintenance_failed : Bool := false
  window_extended : Bool := false
  window : WindowId := ⟨0⟩
  on_close : OnWindowClose := .FinishActiveStep
  window_closes_at : Nanos := 0
  owner : ControllerIncarnation := {}
  deriving DecidableEq, Repr

namespace MaintenanceJob

def is_terminal (j : MaintenanceJob) : Bool := j.state.is_terminal

/-- Append an entry, keep the newest `kMaxJobHistoryEntries` and count the loss. -/
def push_history (j : MaintenanceJob) (entry : HistoryEntry) : MaintenanceJob :=
  let history := j.history ++ [entry]
  let excess := history.length - limits.kMaxJobHistoryEntries
  { j with history := history.drop excess, history_dropped := j.history_dropped + excess }

end MaintenanceJob

/-! ## The job table -/

structure JobTable where
  jobs : Table MaintenanceJob.id := Table.empty
  next_id : JobId := ⟨1⟩

namespace JobTable

def find (t : JobTable) (id : JobId) : Option MaintenanceJob := t.jobs.find id

def insert (t : JobTable) (job : MaintenanceJob) : Result JobTable := do
  refuse_if (!job.id.valid) (invalid_argument (text "job id is not valid"))
  refuse_if (decide (t.jobs.size ≥ limits.kMaxJobsTotal) && (t.find job.id).isNone)
    (make_error .LimitExceeded (text "job table is at capacity"))
  refuse_if (t.find job.id).isSome
    (make_error .AlreadyExists (text "job " ++ job.id.to_string ++ text " already exists"))
  .ok { t with jobs := t.jobs.put job }

/-- Fenced update. -/
def put (t : JobTable) (job : MaintenanceJob) : Result JobTable :=
  match t.find job.id with
  | none => .error (make_error .NotFound
    (text "job " ++ job.id.to_string ++ text " does not exist"))
  | some stored =>
      if job.revision ≠ stored.revision.next then
        .error (make_error .StaleRevision (text "replacement for job " ++ job.id.to_string ++
          text " is at revision " ++ job.revision.to_string ++
          text " but the stored revision is " ++
          stored.revision.to_string))
      else .ok { t with jobs := t.jobs.put job }

/-- Install a record without revision fencing. -/
def adopt (t : JobTable) (job : MaintenanceJob) : Result JobTable := do
  refuse_if (!job.id.valid) (invalid_argument (text "adopted job has no identity"))
  .ok { t with jobs := t.jobs.put job }

def erase (t : JobTable) (id : JobId) : JobTable := { t with jobs := t.jobs.erase id }

end JobTable

/-! ## Quarantine -/

/-- A target that may not return to service until it is proven whole. -/
structure QuarantineRecord where
  id : QuarantineId
  target : TargetId
  job : JobId
  generation : GenerationId
  reason : BlockReason := .None
  detail : Text := []
  created_at : Nanos := 0
  created_by : ControllerIncarnation := {}
  cleared : Bool := false
  cleared_at : Nanos := 0
  cleared_by : Text := []
  deriving DecidableEq, Repr

structure QuarantineTable where
  records : Table QuarantineRecord.id := Table.empty
  next_id : QuarantineId := ⟨1⟩

namespace QuarantineTable

def find (t : QuarantineTable) (id : QuarantineId) : Option QuarantineRecord := t.records.find id

def insert (t : QuarantineTable) (record : QuarantineRecord) : Result QuarantineTable := do
  refuse_if (!record.id.valid || !record.target.valid)
    (invalid_argument (text "quarantine record is not well formed"))
  refuse_if (t.find record.id).isSome (make_error .AlreadyExists
    (text "quarantine " ++ record.id.to_string ++ text " already exists"))
  .ok { t with records := t.records.put record }

def put (t : QuarantineTable) (record : QuarantineRecord) : Result QuarantineTable := do
  refuse_if (t.find record.id).isNone (make_error .NotFound
    (text "quarantine " ++ record.id.to_string ++ text " does not exist"))
  .ok { t with records := t.records.put record }

/-- Install a record as it was persisted and move the allocator past it. -/
def adopt (t : QuarantineTable) (record : QuarantineRecord) : Result QuarantineTable := do
  refuse_if (!record.id.valid || !record.target.valid)
    (invalid_argument (text "persisted quarantine record is not well formed"))
  .ok { records := t.records.put record
        next_id := if record.id ≥ t.next_id then record.id.next else t.next_id }

/-- The newest open quarantine covering the target; among equally new ones the smallest id. -/
def find_open_for_target (t : QuarantineTable) (target : TargetId) : Option QuarantineRecord :=
  t.records.rows.foldl (fun best record =>
    if record.cleared || decide (record.target ≠ target) then best
    else
      match best with
      | none => some record
      | some b =>
          if record.created_at > b.created_at ∨
          (record.created_at = b.created_at ∧ record.id < b.id)
          then some record else best) none

/-- If the search finds nothing, every quarantine of the target has been cleared. -/
theorem cleared_of_find_open_for_target {t : QuarantineTable} {target : TargetId}
    (h : t.find_open_for_target target = none) :
    ∀ q ∈ t.records.rows, q.target = target → q.cleared = true := by
  unfold find_open_for_target at h
  -- A search that has found something never forgets it.
  have hkeeps : ∀ (rows : List QuarantineRecord) (b : Option QuarantineRecord),
      rows.foldl (fun best record =>
        if record.cleared || decide (record.target ≠ target) then best
        else
          match best with
          | none => some record
          | some b =>
              if record.created_at > b.created_at ∨
                (record.created_at = b.created_at ∧ record.id < b.id)
              then some record else best) b = none →
      b = none ∧ ∀ q ∈ rows, q.target = target → q.cleared = true := by
    intro rows
    induction rows with
    | nil => intro b hb; exact ⟨hb, by simp⟩
    | cons x rows ih =>
      intro b hb
      obtain ⟨hnone, hrest⟩ := ih _ hb
      simp only at hnone
      by_cases hskip : (x.cleared || decide (x.target ≠ target)) = true
      · rw [if_pos hskip] at hnone
        refine ⟨hnone, ?_⟩
        intro q hq htarget
        rcases List.mem_cons.mp hq with rfl | hq
        · simpa [htarget] using hskip
        · exact hrest q hq htarget
      · rw [if_neg hskip] at hnone
        split at hnone
        · cases hnone
        · split at hnone <;> cases hnone
  exact (hkeeps _ _ h).2

end QuarantineTable

/-! ## Requests -/

def validate_request_shape (request : MaintenanceRequest) : Status := do
  refuse_if (request.title.isEmpty || decide (request.title.length > limits.kMaxTitleLength))
    (invalid_argument (text "request title is empty or too long"))
  refuse_if (request.reason.length > limits.kMaxReasonLength)
    (make_error .LimitExceeded (text "request reason exceeds the maximum length"))
  refuse_if request.targets.isEmpty
    (invalid_argument (text "request must name at least one target"))
  refuse_if (request.targets.length > limits.kMaxTargetsPerJob)
    (make_error .LimitExceeded (text "request exceeds the maximum target count"))
  refuse_if (request.depends_on.length > limits.kMaxDependenciesPerJob)
    (make_error .LimitExceeded (text "request exceeds the maximum dependency count"))
  refuse_if (repeats request.targets) (invalid_argument (text "request repeats a target"))
  check_all (fun target : TargetId => refuse_if (!target.valid)
    (invalid_argument (text "request contains an invalid target id"))) request.targets
  refuse_if (repeats request.depends_on) (invalid_argument (text "request repeats a dependency"))
  refuse_if (request.estimated_duration < 0)
    (invalid_argument (text "request estimated_duration must not be negative"))
  refuse_if (!request.requestor.valid) (invalid_argument (text "request must name a requestor"))

end MaintenanceFabric
