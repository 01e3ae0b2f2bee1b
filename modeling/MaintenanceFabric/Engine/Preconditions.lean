import MaintenanceFabric.Engine.Impact

/-! # Preconditions

    The fifteen checks a start rests on.  Each check is a function of the
    context that returns one result: satisfied, violated (must be repaired) or
    pending (may still be acquired).  The set is the list of all of them in
    the source's order.
-/

namespace MaintenanceFabric

inductive PreconditionKind where
  | PolicyBound | RequestShape | TargetsKnown | TargetsMaintainable | DependencySatisfied
  | EvidenceFresh | Redundancy | FailureDomain | CapacityHeadroom | ContractAvailability
  | ConflictingMaintenance | WindowAdmissible | ControlPlaneQuorum | AuthorityReserved
  | DrainAcquired
  deriving DecidableEq, Repr

def PreconditionKind.code : PreconditionKind → Nat
  | .PolicyBound => 0
  | .RequestShape => 1
  | .TargetsKnown => 2
  | .TargetsMaintainable => 3
  | .DependencySatisfied => 4
  | .EvidenceFresh => 5
  | .Redundancy => 6
  | .FailureDomain => 7
  | .CapacityHeadroom => 8
  | .ContractAvailability => 9
  | .ConflictingMaintenance => 10
  | .WindowAdmissible => 11
  | .ControlPlaneQuorum => 12
  | .AuthorityReserved => 13
  | .DrainAcquired => 14

inductive PreconditionStatus where
  | Satisfied | Violated | Pending
  deriving DecidableEq, Repr

def PreconditionStatus.code : PreconditionStatus → Nat
  | .Satisfied => 0
  | .Violated => 1
  | .Pending => 2

structure PreconditionResult where
  kind : PreconditionKind
  status : PreconditionStatus
  reason : BlockReason
  code : Text
  detail : Text

structure PreconditionSet where
  results : List PreconditionResult
  satisfied : Nat
  violated : Nat
  pending : Nat
  policy_revision : Revision
  topology_revision : Revision
  digest : UInt64

structure PreconditionContext where
  job : MaintenanceJob
  topology : Topology
  policy : Policy
  evidence : EvidenceStore
  ledger : AuthorityLedger
  jobs : JobTable
  readiness : ReadinessView
  current : ControllerIncarnation
  now : Nanos
  check_authority : Bool
  check_drain : Bool
  impact : CapacityImpact

namespace PreconditionContext

variable (c : PreconditionContext)

/-! ## The checks -/

def satisfied (kind : PreconditionKind) (code detail : Text) : PreconditionResult :=
  ⟨kind, .Satisfied, .None, code, detail⟩

def violated (kind : PreconditionKind) (reason : BlockReason) (code detail : Text) :
    PreconditionResult :=
  ⟨kind, .Violated, reason, code, detail⟩

def pending (kind : PreconditionKind) (reason : BlockReason) (code detail : Text) :
    PreconditionResult :=
  ⟨kind, .Pending, reason, code, detail⟩

def policy_bound : PreconditionResult :=
  if c.job.policy_revision.valid && decide (c.job.policy_revision ≠ c.policy.revision) then
    violated .PolicyBound .PolicyDenied (text "policy-revision-changed")
      (text "job was validated under policy revision " ++ c.job.policy_revision.to_string ++
        text " but the current policy revision is " ++ c.policy.revision.to_string)
  else
    satisfied .PolicyBound (text "policy-revision-current")
      (text "policy revision " ++ c.policy.revision.to_string ++ text ", topology revision " ++
        c.topology.revision.to_string)

/-- The request a job was created from. -/
def request_of (job : MaintenanceJob) : MaintenanceRequest :=
  { title := job.title, reason := job.reason, targets := job.targets, depends_on := job.depends_on
    window_filter := job.window_filter, priority := job.priority
    estimated_duration := job.estimated_duration, requires_drain := job.requires_drain
    requestor := job.requestor }

def request_shape : PreconditionResult :=
  match validate_request_shape (request_of c.job) with
  | .ok _ => satisfied .RequestShape (text "request-shape-valid") (text "request shape is valid")
  | .error e => violated .RequestShape .PolicyDenied (text "request-shape-invalid") (format_error e)

def targets_known : PreconditionResult :=
  match c.job.targets.filter (fun t => !c.topology.contains t) with
  | [] => satisfied .TargetsKnown (text "targets-known")
      (decimal c.job.targets.length ++ text " requested target(s) exist; removal set is " ++
        decimal c.job.removal_set.length ++ text " target(s)")
  | unknown :: _ => violated .TargetsKnown .TargetUnknown (text "targets-unknown")
      (text "undeclared target(s): " ++ unknown.to_string)

def targets_maintainable : PreconditionResult :=
  match c.job.targets.filter (fun t => (c.topology.target t).any (fun r => !r.maintainable)) with
  | [] => satisfied .TargetsMaintainable (text "targets-maintainable")
      (text "every requested target is maintainable")
  | target :: _ => violated .TargetsMaintainable .TargetNotMaintainable
      (text "target-not-maintainable")
      (text "target " ++ target.to_string ++ text " is marked not maintainable")

/-- A dependency that can never complete, rendered. -/
def broken_dependency (dependency : JobId) : Option Text :=
  match c.jobs.find dependency with
  | none => some (dependency.to_string ++ text " (missing)")
  | some other =>
      if other.state = .Cancelled ∨ other.state = .Failed then
        some (dependency.to_string ++ text " (" ++ other.state.to_string ++ text ")")
      else none

/-- A dependency that is still under way, rendered. -/
def unfinished_dependency (dependency : JobId) : Option Text :=
  match c.jobs.find dependency with
  | none => none
  | some other =>
      if other.state = .Complete ∨ other.state = .Cancelled ∨ other.state = .Failed then none
      else some (dependency.to_string ++ text " (" ++ other.state.to_string ++ text ")")

def dependency_satisfied : PreconditionResult :=
  match c.job.depends_on.filterMap c.broken_dependency with
  | broken :: _ => violated .DependencySatisfied .DependencyUnmet (text "dependency-failed")
      (text "dependency " ++ broken ++ text " can never complete")
  | [] =>
      match c.job.depends_on.filterMap c.unfinished_dependency with
      | unfinished :: _ => pending .DependencySatisfied .DependencyUnmet
          (text "dependency-pending") (text "waiting for dependency " ++ unfinished)
      | [] => satisfied .DependencySatisfied (text "dependency-satisfied")
          (decimal c.job.depends_on.length ++ text " dependency(ies) complete")

def evidence_fresh : PreconditionResult :=
  match c.readiness.unfresh c.job.removal_set with
  | [] => satisfied .EvidenceFresh (text "evidence-fresh")
      (decimal c.job.removal_set.length ++
        text " target(s) have fresh health evidence from at least " ++
        decimal c.policy.min_evidence_sources ++ text " source(s)")
  | first :: rest => violated .EvidenceFresh .EvidenceMissingOrStale (text "evidence-stale")
      (text "target " ++ first.to_string ++ text " lacks fresh evidence: " ++
        ((c.readiness.get first).map TargetReadiness.detail).getD (text "no observation") ++
        text " (" ++ decimal (first :: rest).length ++ text " of " ++
        decimal c.job.removal_set.length ++ text " target(s) affected)")

def redundancy : PreconditionResult :=
  match c.impact.pools.filter (fun e => !e.satisfied) with
  | [] => satisfied .Redundancy (text "redundancy-satisfied")
      (decimal c.impact.pools.length ++ text " affected pool(s) keep their redundancy budget")
  | first :: _ => violated .Redundancy .RedundancyViolation (text "redundancy-violated")
      first.reason

def failure_domain : PreconditionResult :=
  match c.impact.domains.filter (fun e => !e.satisfied) with
  | [] => satisfied .FailureDomain (text "failure-domain-satisfied")
      (decimal c.impact.domains.length ++ text " affected failure domain(s) within limits")
  | first :: _ => violated .FailureDomain .FailureDomainLimit (text "failure-domain-violated")
      first.reason

def capacity_headroom : PreconditionResult :=
  match c.impact.pools.filter (fun e => decide (e.reserve_units > 0) &&
      decide (e.remaining_units < wrap32 (e.required_units + e.reserve_units))) with
  | [] => satisfied .CapacityHeadroom (text "headroom-satisfied")
      (text "capacity reserve policy is preserved")
  | pool :: _ => violated .CapacityHeadroom .CapacityHeadroom (text "headroom-violated")
      (text "pool " ++ pool.pool.to_string ++ text " would keep " ++
        decimal pool.remaining_units ++ text " unit(s); policy reserves " ++
        decimal pool.reserve_units ++ text " beyond the redundancy minimum")

def contract_availability : PreconditionResult :=
  match c.impact.contracts.filter (fun e => !e.satisfied) with
  | [] => satisfied .ContractAvailability (text "contracts-satisfied")
      (decimal c.impact.contracts.length ++ text " affected workload contract(s) satisfied")
  | first :: _ => violated .ContractAvailability .ContractViolation (text "contract-violated")
      first.reason

def intersects (a b : List TargetId) : Bool := a.any (fun t => decide (t ∈ b))

/-- Is the capacity of another job already committed? The test reads the job's stage and its
    live reservation, not its `service_removed` flag. -/
def committed (other : MaintenanceJob) : Bool :=
  other.state.stage_removes_service ||
    (c.ledger.find_for_job other.id other.generation).any (fun held => held.live_at c.now)

def job_conflict (other : MaintenanceJob) : Option Text :=
  if other.id = c.job.id then none
  else if c.committed other && intersects other.removal_set c.job.removal_set then
    some (other.id.to_string ++ text " already holds the same scope (" ++ other.state.to_string ++
      text ")")
  else none

def reservation_conflict (r : AuthorityReservation) : Option Text :=
  if r.job = c.job.id then none
  else if r.live_at c.now && intersects r.targets c.job.removal_set then
    some (text "maintenance authority " ++ r.id.to_string ++ text " held by job " ++
      r.job.to_string ++ text " covers the same scope")
  else none

def conflicting_maintenance : PreconditionResult :=
  match push_all_unique (c.jobs.jobs.rows.filterMap c.job_conflict)
      (c.ledger.reservations.rows.filterMap c.reservation_conflict) with
  | [] => satisfied .ConflictingMaintenance (text "no-conflict")
      (text "no other job or reservation claims this scope")
  | first :: _ => violated .ConflictingMaintenance .ConflictingMaintenance
      (text "conflicting-maintenance") first

def window_admissible : PreconditionResult :=
  let evaluation := evaluate_window c.policy.windows c.job.targets c.now c.policy.require_window
  if evaluation.allows_start then
    satisfied .WindowAdmissible (text "window-open") evaluation.detail
  else
    violated .WindowAdmissible .WindowUnavailable (text "window-" ++ evaluation.verdict.to_string)
      evaluation.detail

/-- Sources 1 to `kMaxEvidenceSourcesPerKey`, the ones every scan over sources visits. -/
def scanned_sources : List SourceId :=
  (List.range limits.kMaxEvidenceSourcesPerKey).map (fun i => ⟨i + 1⟩)

/-- The scan over quorum observations: the proof found, or what the last one looked like. -/
def quorum_scan : List SourceId → Text → Bool × Text
  | [], detail => (false, detail)
  | source :: sources, detail =>
      let key : EvidenceKey :=
        { kind := .ControlPlaneQuorum, subject := { kind := .Global }, source }
      match c.evidence.find key with
      | none => quorum_scan sources detail
      | some record =>
          let freshness := c.evidence.evaluate { key, current := c.current, now := c.now }
          if freshness.fresh && record.payload.result then
            (true, text "control-plane quorum proven by " ++ source.to_string)
          else quorum_scan sources
            (text "control-plane quorum observation is " ++ freshness.state.to_string)

def control_plane_quorum : PreconditionResult :=
  if c.job.removal_set.any (fun t => decide (t.kind = .ControlPlane)) then
    match c.quorum_scan scanned_sources (text "no control-plane quorum observation") with
    | (true, detail) => satisfied .ControlPlaneQuorum (text "control-plane-quorum-proven") detail
    | (false, detail) => violated .ControlPlaneQuorum .ControlPlaneUnsafe
        (text "control-plane-quorum-unproven") detail
  else
    satisfied .ControlPlaneQuorum (text "control-plane-not-affected")
      (text "the removal set contains no control-plane component")

def authority_reserved : PreconditionResult :=
  if c.check_authority then
    match (c.ledger.find_for_job c.job.id c.job.generation).filter (fun r => r.live_at c.now) with
    | none => pending .AuthorityReserved .AuthorityDenied (text "authority-not-held")
        (text "job does not currently hold live maintenance authority")
    | some r =>
        if r.attempt ≠ c.job.active_attempt then
          violated .AuthorityReserved .AuthorityDenied (text "authority-attempt-mismatch")
            (text "authority " ++ r.id.to_string ++ text " belongs to attempt " ++
              r.attempt.to_string ++ text " but the active attempt is " ++
              c.job.active_attempt.to_string)
        else
          satisfied .AuthorityReserved (text "authority-held")
            (text "authority " ++ r.id.to_string ++ text " covers " ++ decimal r.targets.length ++
              text " target(s) until " ++ format_time r.expires_at)
  else
    pending .AuthorityReserved .AuthorityDenied (text "authority-not-requested")
      (text "authority is acquired during the prerequisites stage")

/-- Is there a fresh positive drain confirmation for the target from a scanned source? -/
def drain_confirmed (target : TargetId) : Bool :=
  scanned_sources.any (fun source =>
    let key : EvidenceKey :=
      { kind := .DrainLeaseState, subject := EvidenceSubject.of target, source }
    match c.evidence.find key with
    | none => false
    | some record =>
        (c.evidence.evaluate { key, current := c.current, now := c.now, job := c.job.id
                               attempt := c.job.active_attempt }).fresh && record.payload.result)

def drain_acquired : PreconditionResult :=
  if c.check_drain then
    if c.job.requires_drain then
      if !c.job.lease.valid then
        pending .DrainAcquired .DrainFailed (text "drain-not-held")
          (text "job does not hold a drain lease")
      else
        match c.job.removal_set.filter (fun t => !c.drain_confirmed t) with
        | [] => satisfied .DrainAcquired (text "drain-confirmed")
            (text "drain lease " ++ c.job.lease.to_string ++
              text " is confirmed for every target in the removal set")
        | first :: rest => violated .DrainAcquired .DrainFailed (text "drain-unconfirmed")
            (text "drain is not confirmed for target " ++ first.to_string ++ text " (" ++
              decimal (first :: rest).length ++ text " target(s) unconfirmed)")
    else
      satisfied .DrainAcquired (text "drain-not-required")
        (text "the request does not require a drain")
  else
    pending .DrainAcquired .DrainFailed (text "drain-not-requested")
      (text "drain is acquired during the prerequisites stage")

/-! ## The set -/

def results : List PreconditionResult :=
  [c.policy_bound, c.request_shape, c.targets_known, c.targets_maintainable,
   c.dependency_satisfied, c.evidence_fresh, c.redundancy, c.failure_domain, c.capacity_headroom,
   c.contract_availability, c.conflicting_maintenance, c.window_admissible,
   c.control_plane_quorum, c.authority_reserved, c.drain_acquired]

def results_digest : UInt64 :=
  let d := (({} : Digest).update (text "mf.preconditions.v1")).update_u64 c.results.length
  let d := c.results.foldl (fun d r => ((((d.update_u32 r.kind.code).update_u32
    r.status.code).update_u32 r.reason.code).update r.code).update r.detail) d
  let d := ((d.update_u64 c.policy.revision.value).update_u64 c.policy.digest.toNat).update_u64
    c.topology.revision.value
  (((((d.update_u64 c.topology.digest.toNat).update_u64 c.readiness.digest.toNat).update_u64
    c.impact.digest.toNat).update c.current.to_string)).value

end PreconditionContext

/-- How many results have the given status. -/
def count_status (status : PreconditionStatus) (results : List PreconditionResult) : Nat :=
  (results.filter (fun r => decide (r.status = status))).length

def evaluate_preconditions (c : PreconditionContext) : PreconditionSet :=
  { results := c.results
    satisfied := count_status .Satisfied c.results
    violated := count_status .Violated c.results
    pending := count_status .Pending c.results
    policy_revision := c.policy.revision
    topology_revision := c.topology.revision
    digest := c.results_digest }

/-- The first violated result, if there is one. -/
def PreconditionSet.first_violated (s : PreconditionSet) : Option PreconditionResult :=
  s.results.find? (fun r => decide (r.status = .Violated))

end MaintenanceFabric
