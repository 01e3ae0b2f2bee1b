import MaintenanceFabric.Runtime.Controller

/-! # Calls

    What reaches the controller from outside: answers of the drain port, the
    operator's requests, reports of evidence and completion, and the restart
    that reconciles a new incarnation with what the previous one left.
-/

namespace MaintenanceFabric

namespace Controller

/-! ## Drain outcomes -/

/-- What `perform_action` hands on. A release is always answered about the lease it named. -/
def perform_action (action : DrainAction) (answer : DrainResponse) : DrainResponse :=
  match action.kind with
  | .Request => answer
  | .Release =>
      { status := answer.status, lease := { id := action.lease, state := .Released } }

/-- Is the lease gone, either because the port released it or because it never knew it? -/
def lease_gone (status : Status) : Bool :=
  match status with
  | .ok _ => true
  | .error e => e.code == .NotFound

/-- The job that referenced the lease must stop believing it holds one. -/
def forget_lease (c : Controller) (lease : DrainLeaseId) (now : Nanos) : Controller :=
  match c.store.state.jobs.jobs.rows.find? (fun job =>
      decide (job.lease = lease) && !job.is_terminal) with
  | none => c
  | some candidate =>
      (c.commit_job_locked { candidate with
        lease := ⟨0⟩
        last_detail := if candidate.last_detail.isEmpty then text "drain lease released"
          else candidate.last_detail } now).2

def apply_release (c : Controller) (action : DrainAction) (response : DrainResponse)
    (lease_id : DrainLeaseId) (now : Nanos) : Controller :=
  let c := { c with queued_releases := c.queued_releases.filter (· ≠ action.lease) }
  if lease_gone response.status then
    { c with store := (c.store.commit_lease_erased lease_id).2 }.forget_lease lease_id now
  else c

/-- Nobody waits for this lease any more: release what the port granted. -/
def apply_stale (c : Controller) (response : DrainResponse) (lease_id : DrainLeaseId) :
    Controller :=
  if Status.isOk response.status && lease_id.valid then
    { c with
      deferred_releases := c.deferred_releases ++
        [{ kind := .Release, lease := lease_id
           reason := text "drain granted to a fenced attempt" }]
      queued_releases := push_unique c.queued_releases lease_id }
  else c

def apply_failure (c : Controller) (current : MaintenanceJob) (e : Error) (now : Nanos) :
    Controller :=
  let failed := { current with
    drain_failures := current.drain_failures + 1
    last_detail := text "drain request failed: " ++ format_error e }
  let d : Drive := { ctl := c, job := failed }
  let d := if failed.drain_failures ≥ c.policy.max_drain_failures_before_block
    then (d.transition_locked .Blocked .DrainFailed failed.last_detail now).2 else d
  (d.ctl.commit_job_locked d.job now).2

/-- One drain-state record per target of the scope. -/
def record_drain (c : Controller) (job : MaintenanceJob) (drained : Bool) (now : Nanos) :
    Controller :=
  job.removal_set.foldl (fun c target =>
    (c.author_evidence .DrainLeaseState target ⟨1⟩ now { result := drained, health := .Down }
      job.id job.active_attempt).2) c

def apply_granted (c : Controller) (current : MaintenanceJob) (lease : DrainLease) (now : Nanos) :
    Controller :=
  if !lease.id.valid then c
  else
    match c.store.commit_lease lease with
    | (.error _, store) => { c with store }
    | (.ok _, store) =>
        let c := { c with store }
        let job := { current with
          lease := lease.id
          last_detail := text "drain lease " ++ lease.id.to_string ++ text " granted in state " ++
            lease.state.to_string }
        let c := if lease.state = .Drained ∨ lease.state = .Draining
          then c.record_drain job (decide (lease.state = .Drained)) now else c
        (c.commit_job_locked job now).2

/-- Is the actor that asked for the drain still there? -/
def drain_stale (c : Controller) (action : DrainAction) : Bool :=
  match c.store.state.jobs.find action.job with
  | none => true
  | some current => decide (current.generation ≠ action.generation) ||
      decide (current.active_attempt ≠ action.attempt)

def apply_outcome (c : Controller) (action : DrainAction) (response : DrainResponse) (now : Nanos) :
    Controller :=
  let lease_id := if response.lease.id.valid then response.lease.id else action.lease
  let c := { c with drain_inflight := c.drain_inflight.filter (· ≠ action.job) }
  match action.kind with
  | .Release => c.apply_release action response lease_id now
  | .Request =>
      if c.drain_stale action then c.apply_stale response lease_id
      else
        match c.store.state.jobs.find action.job with
        | none => c
        | some current =>
            match response.status with
            | .error e => c.apply_failure current e now
            | .ok _ => c.apply_granted current response.lease now

/-! ## Operator calls -/

def set_topology (c : Controller) (topology : Topology) : Status × Controller :=
  match topology.validate with
  | .error e => (.error e, c)
  | .ok _ =>
      match c.store.commit_topology topology with
      | (.error e, store) => (.error e, { c with store })
      | (.ok _, store) => (ok_status, { c with store, topology := store.state.topology })

def set_policy (c : Controller) (policy : Policy) : Status × Controller :=
  match policy.validate with
  | .error e => (.error e, c)
  | .ok _ =>
      match c.store.commit_policy policy with
      | (.error e, store) => (.error e, { c with store })
      | (.ok _, store) => (ok_status, { c with store, policy := store.state.policy })

/-- Push the dependencies of one node; meeting the start again is a cycle. -/
def expand_node (dependency : JobId) :
    List JobId → List JobId × List JobId → Result (List JobId × List JobId)
  | [], walk => .ok walk
  | next :: rest, (frontier, seen) =>
      if next = dependency then
        .error (make_error .StateConflict (text "dependency graph containing " ++
          dependency.to_string ++ text " is cyclic"))
      else if next ∈ seen then expand_node dependency rest (frontier, seen)
      else expand_node dependency rest (next :: frontier, seen ++ [next])

/-- Bounded transitive walk from one dependency; the frontier's back is the head of the list. -/
def walk_dependencies (jobs : JobTable) (dependency : JobId) :
    Nat → List JobId → List JobId → Status
  | _, [], _ => ok_status
  | 0, _ :: _, _ =>
      .error (make_error .StateConflict (text "dependency graph exceeds the search budget"))
  | budget + 1, current :: frontier, seen =>
      match jobs.find current with
      | none => walk_dependencies jobs dependency budget frontier seen
      | some node =>
          match expand_node dependency node.depends_on (frontier, seen) with
          | .error e => .error e
          | .ok (frontier, seen) => walk_dependencies jobs dependency budget frontier seen

def check_dependency (jobs : JobTable) (dependency : JobId) : Status :=
  match jobs.find dependency with
  | none => .error (make_error .NotFound
      (text "dependency " ++ dependency.to_string ++ text " does not exist"))
  | some _ => walk_dependencies jobs dependency
      (limits.kMaxDependenciesPerJob * limits.kMaxDependenciesPerJob) [dependency] [dependency]

/-- The checks of `propose`. -/
def check_proposal (c : Controller) (request : MaintenanceRequest) : Status := do
  validate_request_shape request
  refuse_if (!c.policy.tiers.isEmpty && !c.policy.known_tier request.priority)
    (make_error .PolicyDenied (text "priority tier " ++ decimal request.priority ++
      text " is not declared by policy"))
  check_all (check_dependency c.store.state.jobs) request.depends_on

def proposed_job (c : Controller) (request : MaintenanceRequest) (actor : Text) (clock : Nanos) :
    MaintenanceJob :=
  { generation := ⟨1⟩
    title := request.title
    reason := request.reason
    targets := request.targets
    depends_on := request.depends_on
    window_filter := request.window_filter
    priority := request.priority
    estimated_duration := if request.estimated_duration > 0 then request.estimated_duration
      else c.policy.default_duration
    requires_drain := request.requires_drain
    requestor := request.requestor
    state := .Proposed
    created_at := clock
    updated_at := clock
    owner := c.incarnation
    approved_by := actor }

def propose (c : Controller) (request : MaintenanceRequest) (actor : Text) (clock : Nanos) :
    Result JobId × Controller :=
  match c.check_proposal request with
  | .error e => (.error e, c)
  | .ok _ =>
      let created := c.store.create_job (c.proposed_job request actor clock)
      (created.1, { c with store := created.2 })

def no_such_job (job : JobId) : Error :=
  make_error .NotFound (text "job " ++ job.to_string ++ text " does not exist")

def approved_job (c : Controller) (current : MaintenanceJob) (actor : Text) (at_ : Nanos) :
    MaintenanceJob :=
  { current with state := .Validated, approved := true, approved_by := actor }.push_history
    { at_, from_state := .Proposed, to_state := .Validated, detail := text "approved by " ++ actor
      by_ := c.incarnation }

/-- The clock is read once for the history entry and once for the commit. -/
def approve (c : Controller) (job : JobId) (actor : Text) (entry_at commit_at : Nanos) :
    Status × Controller :=
  match c.store.state.jobs.find job with
  | none => (.error (no_such_job job), c)
  | some current =>
      if current.state ≠ .Proposed then
        (.error (make_error .StateConflict (text "job " ++ job.to_string ++ text " is " ++
          current.state.to_string ++ text ", only a proposed job can be approved")), c)
      else c.commit_job_locked (c.approved_job current actor entry_at) commit_at

/-- Close every running attempt as fenced. -/
def fence_attempts (attempts : List AttemptRecord) (detail : Text) (now : Nanos) :
    List AttemptRecord :=
  attempts.map (fun a =>
    if a.outcome = .Running then { a with outcome := .Fenced, ended_at := now, detail } else a)

/-- The job under its next generation, before its state changes. -/
def rearmed_job (job : MaintenanceJob) (actor : Text) (now : Nanos) : MaintenanceJob :=
  { job with
    attempts := fence_attempts job.attempts
      (text "fenced by re-arm under generation " ++ job.generation.next.to_string) now
    generation := job.generation.next
    active_attempt := {}
    preconditions_satisfied := false
    preconditions_at := 0
    preconditions_digest := 0
    overrun := false
    window_extended := false
    window_closes_at := 0
    verification_failures := 0
    restoration_failures := 0
    drain_failures := 0
    maintenance_failed := false
    block := .None
    block_detail := []
    approved_by := actor }

def rearm_state (state : JobState) : JobState :=
  if state = .Proposed then .Validated else .Prerequisites

/-- The move of a re-armed job to the stage it re-enters at. -/
def reentered_job (c : Controller) (job : MaintenanceJob) (now : Nanos) : MaintenanceJob :=
  let detail := text "re-armed as generation " ++ job.generation.to_string
  { job with state := rearm_state job.state, last_detail := detail }.push_history
    { at_ := now, from_state := job.state, to_state := rearm_state job.state, detail
      by_ := c.incarnation }

/-- Queue the releases a call produced for the next pass. -/
def defer_releases (c : Controller) (actions : List DrainAction) : Controller :=
  { c with
    queued_releases := push_all_unique c.queued_releases (actions.map DrainAction.lease)
    deferred_releases := c.deferred_releases ++ actions }

def removed_service (job : JobId) : Error :=
  make_error .StateConflict (text "job " ++ job.to_string ++
    text " has already removed service; it must be restored, not re-armed")

/-- Authority and lease are given back before the transition is checked. -/
def rearm (c : Controller) (job : JobId) (actor : Text) (now : Nanos) : Status × Controller :=
  match c.store.state.jobs.find job with
  | none => (.error (no_such_job job), c)
  | some current =>
      if current.service_removed then (.error (removed_service job), c)
      else if current.is_terminal then
        (.error (make_error .StateConflict (text "job " ++ job.to_string ++
          text " is terminal and cannot be re-armed")), c)
      else
        let d := Drive.release_resources_locked { ctl := c, job := current, actions := some [] }
        let updated := rearmed_job d.job actor now
        let check := check_transition updated.state (rearm_state updated.state) false
        if check.allowed then
          match d.ctl.commit_job_locked (c.reentered_job updated now) now with
          | (.error e, c) => (.error e, c)
          | (.ok _, c) => (ok_status, c.defer_releases (d.actions.getD []))
        else (.error (make_error .StateConflict check.reason), d.ctl)

def cancel (c : Controller) (job : JobId) (actor reason : Text) (now : Nanos) :
    Status × Controller :=
  match c.store.state.jobs.find job with
  | none => (.error (no_such_job job), c)
  | some current =>
      if current.service_removed then
        (.error (make_error .StateConflict (text "job " ++ job.to_string ++
          text " has removed service; cancellation is refused so the scope must be restored instead")),
          c)
      else if current.is_terminal then
        (.error (make_error .StateConflict (text "job " ++ job.to_string ++ text " is already " ++
          current.state.to_string)), c)
      else
        match Drive.transition_locked { ctl := c, job := current, actions := some [] } .Cancelled
            .None (text "cancelled by " ++ actor ++ text ": " ++ reason) now with
        | (false, d) => (.error (make_error .StateConflict
            (text "cancellation is not a legal transition")), d.ctl)
        | (true, d) =>
            match d.ctl.commit_job_locked d.job now with
            | (.error e, c) => (.error e, c)
            | (.ok _, c) => (ok_status, c.defer_releases (d.actions.getD []))

/-! ## Reports -/

/-- The observer, the identity and the life of a record default to the controller's own. -/
def completed_evidence (c : Controller) (evidence : EvidenceRecord) : EvidenceRecord × Controller :=
  let evidence := if evidence.observed_by.valid then evidence
    else { evidence with observed_by := c.incarnation }
  let (evidence, c) := if evidence.id.valid then (evidence, c)
    else
      let allocated := c.store.allocate_evidence_id
      ({ evidence with id := allocated.1 }, { c with store := allocated.2 })
  (if evidence.ttl ≤ 0 ∨ evidence.ttl > limits.kMaxEvidenceTtlNanos
    then { evidence with ttl := c.policy.ttl_for evidence.key.kind } else evidence, c)

def observe (c : Controller) (evidence : EvidenceRecord) : Status × Controller :=
  let completed := c.completed_evidence evidence
  let observed := completed.2.store.observe_evidence completed.1
  (observed.1, { completed.2 with store := observed.2 })

/-- The token checks shared by both reports. -/
def check_token (what : Text) (current : MaintenanceJob) (attempt : AttemptId) : Status := do
  refuse_if (attempt.generation ≠ current.generation) (make_error .StaleGeneration
    (what ++ text " report carries generation " ++ attempt.generation.to_string ++
      text " but the job is at generation " ++ current.generation.to_string))
  refuse_if (!current.active_attempt.valid || decide (attempt ≠ current.active_attempt))
    (make_error .StaleAttempt (what ++ text " report carries attempt " ++ attempt.to_string ++
      text " but the current attempt is " ++ current.active_attempt.to_string))

/-- One completion record per target, stopping at the first refusal. -/
def record_completion (job : JobId) (attempt : AttemptId) (succeeded : Bool) (now : Nanos) :
    Controller → List TargetId → Status × Controller
  | c, [] => (ok_status, c)
  | c, target :: rest =>
      match c.author_evidence .MaintenanceCompletion target ⟨1⟩ now
          { result := succeeded, health := if succeeded then .Degraded else .Down } job attempt with
      | (.error e, c) => (.error e, c)
      | (.ok _, c) => record_completion job attempt succeeded now c rest

def report_completion (c : Controller) (job : JobId) (attempt : AttemptId) (succeeded : Bool)
    (detail : Text) (now : Nanos) : Status × Controller :=
  match c.store.state.jobs.find job with
  | none => (.error (no_such_job job), c)
  | some current =>
      match check_token (text "completion") current attempt with
      | .error e => (.error e, c)
      | .ok _ =>
          if current.state ≠ .InMaintenance then
            (.error (make_error .StateConflict (text "job " ++ job.to_string ++ text " is " ++
              current.state.to_string ++ text " and cannot accept a completion report")), c)
          else
            match record_completion job attempt succeeded now c current.removal_set with
            | (.error e, c) => (.error e, c)
            | (.ok _, c) => c.commit_job_locked
                { current with last_detail := text "completion reported: " ++ detail } now

def report_restoration (c : Controller) (job : JobId) (attempt : AttemptId) (target : TargetId)
    (restored : Bool) (detail : Text) (now : Nanos) : Status × Controller :=
  match c.store.state.jobs.find job with
  | none => (.error (no_such_job job), c)
  | some current =>
      match check_token (text "restoration") current attempt with
      | .error e => (.error e, c)
      | .ok _ =>
          if target ∉ current.removal_set then
            (.error (invalid_argument (text "target " ++ target.to_string ++
              text " is not in the removal set of job " ++ job.to_string)), c)
          else
            match c.author_evidence .RestorationCheck target ⟨2⟩ now
                { result := restored, health := if restored then .Healthy else .Down } job
                attempt with
            | (.error e, c) => (.error e, c)
            | (.ok _, c) => c.commit_job_locked
                { current with last_detail := text "restoration reported: " ++ detail } now

def clear_quarantine (c : Controller) (id : QuarantineId) (actor justification : Text)
    (now : Nanos) : Status × Controller :=
  match c.store.state.quarantines.find id with
  | none => (.error (make_error .NotFound
      (text "quarantine " ++ id.to_string ++ text " does not exist")), c)
  | some record =>
      let committed := c.store.commit_quarantine { record with
        cleared := true
        cleared_at := now
        cleared_by := actor ++ text ": " ++ justification } (c.store.digests.quarantines id)
      (committed.1, { c with store := committed.2 })

/-! ## Restart -/

/-- A job's tokens, bindings and clocks as a new incarnation starts with them. -/
def fenced_job (c : Controller) (job : MaintenanceJob) (now : Nanos) : MaintenanceJob :=
  { job with
    attempts := fence_attempts job.attempts (text "fenced by controller restart; incarnation " ++
      c.incarnation.to_string ++ text " replaced " ++ job.owner.to_string) now
    active_attempt := {}
    authority := ⟨0⟩
    preconditions_satisfied := false
    preconditions_at := 0
    preconditions_digest := 0
    owner := c.incarnation
    overrun := false
    verification_started_at := now
    restoration_started_at := now }

/-- The reservation reissued for a scope that is already out of service. -/
def reissued_reservation (c : Controller) (job : MaintenanceJob) (now : Nanos) :
    AuthorityReservation :=
  let targets := sort job.removal_set
  { job := job.id
    generation := job.generation
    attempt := job.active_attempt
    owner := c.incarnation
    targets
    domains := c.topology.domains_of targets
    pools := c.topology.pools_of targets
    granted_at := now
    expires_at := now + clamp c.policy.authority_lease limits.kMinDrainLeaseNanos
      limits.kMaxAuthorityLeaseNanos }

/-- Re-establish a job that had removed service: a new attempt, and its authority again. -/
def reissue (c : Controller) (job : MaintenanceJob) (now : Nanos) : MaintenanceJob × Controller :=
  let job := c.new_attempt_locked (c.fenced_job job now) now
  match c.store.reserve_authority (c.reissued_reservation job now) with
  | (.error _, store) => (job, { c with store })
  | (.ok id, store) => ({ job with authority := id }, { c with store })

/-- A job that had not removed service loses its lease. -/
def abandon_lease (c : Controller) (job : MaintenanceJob) (releases : List DrainAction)
    (now : Nanos) : MaintenanceJob × Controller × List DrainAction :=
  let job := c.fenced_job job now
  if job.lease.valid then
    ({ job with lease := ⟨0⟩ },
      { c with queued_releases := push_unique c.queued_releases job.lease },
      releases ++ [{ kind := .Release, job := job.id, lease := job.lease
                     reason := text "reconciled after restart before service removal" }])
  else (job, c, releases)

/-- The block a reconciled job ends in. -/
def reblocked (c : Controller) (job : MaintenanceJob) (removed : Bool) (now : Nanos) :
    Bool × Drive :=
  if job.state ≠ .Blocked then
    Drive.transition_locked { ctl := c, job } .Blocked .ReconciledAfterRestart
      (if removed then
        text "controller restarted while the scope was out of service; verification and restoration are mandatory"
       else text "controller restarted; prerequisites must be re-established") now
  else
    let detail :=
      text "controller restarted; the previous block state was re-established conservatively"
    (true, { ctl := c, job := { job with
      block := .ReconciledAfterRestart
      block_detail := detail
      last_detail := detail } })

/-- The loop state of `reconcile_locked`. -/
structure Reconciling where
  ctl : Controller
  updates : List MaintenanceJob := []
  releases : List DrainAction := []

/-- Must the new incarnation touch this job? -/
def needs_reconciling (c : Controller) (job : MaintenanceJob) : Bool :=
  !(job.is_terminal || decide (job.owner = c.incarnation) || decide (job.state = .Proposed) ||
    decide (job.state = .Validated))

def reconcile_job (r : Reconciling) (job : MaintenanceJob) (now : Nanos) : Reconciling :=
  if r.ctl.needs_reconciling job then
    let (updated, ctl, releases) :=
      if job.service_removed then
        let (updated, ctl) := r.ctl.reissue job now
        (updated, ctl, r.releases)
      else r.ctl.abandon_lease job r.releases now
    match ctl.reblocked updated job.service_removed now with
    | (false, d) => { r with ctl := d.ctl, releases }
    | (true, d) => { ctl := d.ctl, updates := r.updates ++ [d.job], releases }
  else r

/-- The copy of a job that is then blocked: under a new attempt while its scope is out of service,
    without its lease otherwise. -/
def Reconciling.copied (r : Reconciling) (job : MaintenanceJob) (now : Nanos) :
    MaintenanceJob × Controller × List DrainAction :=
  if job.service_removed then ((r.ctl.reissue job now).1, (r.ctl.reissue job now).2, r.releases)
  else r.ctl.abandon_lease job r.releases now

/-- The copy, blocked. -/
def Reconciling.blocked (r : Reconciling) (job : MaintenanceJob) (now : Nanos) : Bool × Drive :=
  (r.copied job now).2.1.reblocked (r.copied job now).1 job.service_removed now

/-- One round of the loop: the copy is blocked, and written when that changes it. -/
theorem reconcile_job_eq (r : Reconciling) (job : MaintenanceJob) (now : Nanos) :
    reconcile_job r job now =
      if r.ctl.needs_reconciling job then
        { ctl := (r.blocked job now).2.ctl
          updates := if (r.blocked job now).1 then r.updates ++ [(r.blocked job now).2.job]
                     else r.updates
          releases := (r.copied job now).2.2 }
      else r := by
  have hcopied : (if job.service_removed then
        let (updated, ctl) := r.ctl.reissue job now
        (updated, ctl, r.releases)
      else r.ctl.abandon_lease job r.releases now) = r.copied job now := rfl
  unfold reconcile_job
  rw [hcopied]
  unfold Reconciling.blocked
  cases r.ctl.needs_reconciling job with
  | false => rfl
  | true =>
    generalize r.copied job now = copied
    simp only [if_true]
    cases copied.2.1.reblocked copied.1 job.service_removed now with
    | mk changed d => cases changed <;> rfl

/-- Revisions are taken from the stored jobs once every update has been prepared. -/
def stamped (c : Controller) (now : Nanos) (job : MaintenanceJob) : MaintenanceJob :=
  match c.store.state.jobs.find job.id with
  | none => job
  | some stored => revised job stored.revision.next now

def reconcile_locked (c : Controller) (now : Nanos) : Status × Controller :=
  let c := { c with store := c.store.fence_authority c.incarnation }
  let r := c.store.state.jobs.jobs.rows.foldl (fun r job => reconcile_job r job now)
    { ctl := c }
  let updates := r.updates.map (r.ctl.stamped now)
  let defer (c : Controller) : Controller :=
    { c with deferred_releases := c.deferred_releases ++ r.releases }
  if updates.isEmpty then (ok_status, defer r.ctl)
  else
    match r.ctl.store.commit_jobs updates with
    | (.error e, store) => (.error e, { r.ctl with store })
    | (.ok _, store) => (ok_status, defer { r.ctl with store })

/-- After the loop the updates are committed, and on success the releases deferred. -/
theorem reconcile_locked_of_loop {c : Controller} {now : Nanos} {r : Reconciling}
    (hloop : (c.store.fence_authority c.incarnation).state.jobs.jobs.rows.foldl
      (fun r job => reconcile_job r job now)
      { ctl := { c with store := c.store.fence_authority c.incarnation } } = r) :
    c.reconcile_locked now =
      if (r.updates.map (r.ctl.stamped now)).isEmpty then (ok_status,
        { r.ctl with deferred_releases := r.ctl.deferred_releases ++ r.releases })
      else
        match r.ctl.store.commit_jobs (r.updates.map (r.ctl.stamped now)) with
        | (.error e, store) => (.error e, { r.ctl with store })
        | (.ok _, store) => (ok_status,
            { r.ctl with store, deferred_releases := r.ctl.deferred_releases ++ r.releases }) := by
  subst hloop
  rfl

structure ControllerOptions where
  controller_id : ControllerId := ⟨1⟩
  nonce : Nat := 0
  evidence_capacity : Nat := limits.kMaxEvidenceRecords

/-- A reopened store holds what was committed; only the allocator of job ids is recomputed and
    the evidence bound is the one of the new options. -/
def recovered (state : PersistedState) (options : ControllerOptions) : PersistedState :=
  { state with
    jobs := { state.jobs with next_id := Store.next_job_id state.jobs }
    evidence := { state.evidence with
      capacity := EvidenceStore.bound options.evidence_capacity } }

/-- `Controller::open`. Whatever happens, the store it leaves behind is what a later open finds. -/
def «open» (store : Store) (options : ControllerOptions) (clock : Nanos) (steady : Nat) :
    Status × Controller :=
  let store : Store := { state := recovered store.state options, verdicts := store.verdicts
                         log := store.log, digests := store.digests }
  match store.begin_incarnation options.controller_id options.nonce steady with
  | (.error e, store) => (.error e, { store })
  | (.ok incarnation, store) =>
      reconcile_locked { store, incarnation, policy := store.state.policy
                         topology := store.state.topology } clock

end Controller

end MaintenanceFabric
