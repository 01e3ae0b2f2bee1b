import MaintenanceFabric.Engine.Arbitration
import MaintenanceFabric.Engine.Preconditions
import MaintenanceFabric.Store.Store

/-! # The controller

    The runtime that owns the store: job edits, lifecycle transitions, the
    seven drive functions and the arbitration of one pass.  Every function
    here runs under the controller's lock, so it is a state transformer.

    A drive works on a private copy of its job.  `Drive` bundles that copy
    with the controller it may change on the way and with the list of drain
    actions it may extend; some callers attach no list.
-/

namespace MaintenanceFabric

def kMaxPassesPerTick : Nat := 8
def kAbortGraceFallbackNanos : Nanos := 60 * kNanosPerSecond
def kSoftBlockDwellNanos : Nanos := kNanosPerSecond

/-- Reasons that cannot clear themselves by retrying. -/
def is_hard_block : BlockReason → Bool
  | .TargetUnknown | .TargetNotMaintainable | .PolicyDenied | .OperatorHold => true
  | _ => false

/-! ## State -/

/-- What the lock-free part of a tick asks of the drain port. -/
inductive DrainKind where
  | Request | Release
  deriving DecidableEq, Repr

structure DrainAction where
  kind : DrainKind
  job : JobId := ⟨0⟩
  generation : GenerationId := ⟨0⟩
  attempt : AttemptId := {}
  lease : DrainLeaseId := ⟨0⟩
  targets : List TargetId := []
  lease_duration : Nanos := 0
  reason : Text := []
  deriving DecidableEq, Repr

structure Controller where
  store : Store := {}
  incarnation : ControllerIncarnation := {}
  policy : Policy := {}
  topology : Topology := {}
  evidence_revision : Nat := 0
  drain_inflight : List JobId := []
  queued_releases : List DrainLeaseId := []
  deferred_releases : List DrainAction := []
  /-- Every answer `write_evidence_locked` was given, also those its callers discard. -/
  written : List (EvidenceKey × Status) := []

structure PassContext where
  now : Nanos
  readiness : ReadinessView

structure Drive where
  ctl : Controller
  job : MaintenanceJob
  actions : Option (List DrainAction) := none

/-- `context.actions->push_back`. -/
def Drive.push (d : Drive) (action : DrainAction) : Drive :=
  { d with actions := d.actions.map (· ++ [action]) }

namespace Controller

/-! ## Evidence the controller writes itself -/

/-- The counter advances whatever happens to the record afterwards. -/
def make_evidence_locked (c : Controller) (kind : EvidenceKind) (subject : EvidenceSubject)
    (source : SourceId) (now ttl : Nanos) (payload : EvidencePayload) (job : JobId)
    (attempt : AttemptId) : EvidenceRecord × Controller :=
  let allocated := c.store.allocate_evidence_id
  let revision := c.evidence_revision + 1
  let asked := if ttl > 0 then ttl else c.policy.ttl_for kind
  ({ id := allocated.1
     key := { kind, subject, source }
     revision := ⟨revision⟩
     observed_at := now
     ttl := if asked ≤ 0 ∨ asked > limits.kMaxEvidenceTtlNanos
       then limits.kDefaultEvidenceTtlNanos else asked
     klass := default_evidence_class kind
     payload
     observed_by := c.incarnation
     job
     attempt },
   { c with store := allocated.2, evidence_revision := revision })

def write_evidence_locked (c : Controller) (record : EvidenceRecord) : Status × Controller :=
  let observed := c.store.observe_evidence record
  (observed.1, { c with store := observed.2, written := c.written ++ [(record.key, observed.1)] })

/-- Make a record about one target, under the policy's life for its kind, and write it. -/
def author_evidence (c : Controller) (kind : EvidenceKind) (target : TargetId) (source : SourceId)
    (now : Nanos) (payload : EvidencePayload) (job : JobId) (attempt : AttemptId) :
    Status × Controller :=
  let made := c.make_evidence_locked kind (EvidenceSubject.of target) source now
    (c.policy.ttl_for kind) payload job attempt
  made.2.write_evidence_locked made.1

/-! ## Jobs -/

/-- A job as it is about to replace its stored version. -/
def revised (job : MaintenanceJob) (revision : Revision) (now : Nanos) : MaintenanceJob :=
  { job with revision, updated_at := now }

def commit_job_locked (c : Controller) (job : MaintenanceJob) (now : Nanos) : Status × Controller :=
  match c.store.state.jobs.find job.id with
  | none => (.error (make_error .NotFound
      (text "job " ++ job.id.to_string ++ text " does not exist")), c)
  | some current =>
      let committed := c.store.commit_job (revised job current.revision.next now)
      (committed.1, { c with store := committed.2 })

/-- Mint a fresh attempt and make it the active one. -/
def new_attempt_locked (c : Controller) (job : MaintenanceJob) (now : Nanos) : MaintenanceJob :=
  let attempt : AttemptId :=
    { job := job.id, generation := job.generation, ordinal := job.next_attempt }
  let attempts := job.attempts ++ [{ id := attempt, started_at := now, outcome := .Running
                                     detail := text "attempt started by " ++
                                       c.incarnation.to_string }]
  { job with
    next_attempt := job.next_attempt.next
    active_attempt := attempt
    owner := c.incarnation
    attempts := attempts.drop (attempts.length - limits.kMaxAttemptsPerJob) }

/-- Did a release leave the job without the reservation it named? -/
def gives_up (released : Status) : Bool :=
  match released with
  | .ok _ => true
  | .error e => e.code == .NotFound || e.code == .StaleIncarnation

end Controller

namespace Drive

def release_authority (d : Drive) : Drive :=
  if d.job.authority.valid then
    let released := d.ctl.store.release_authority d.job.authority d.ctl.incarnation
    { d with
      ctl := { d.ctl with store := released.2 }
      job := if Controller.gives_up released.1 then { d.job with authority := ⟨0⟩ } else d.job }
  else d

/-- The lease is forgotten in any case; its release is asked for only if somebody listens. -/
def release_lease (d : Drive) : Drive :=
  if d.job.lease.valid then
    let asked := d.push { kind := .Release, job := d.job.id, generation := d.job.generation
                          attempt := d.job.active_attempt, lease := d.job.lease
                          reason := text "job retired before service removal" }
    { asked with job := { d.job with lease := ⟨0⟩ } }
  else d

def release_resources_locked (d : Drive) : Drive := d.release_authority.release_lease

/-- The job's own share of a transition: state, block, history and time stamps. -/
def entered (job : MaintenanceJob) (to_state : JobState) (reason : BlockReason) (detail : Text)
    (now : Nanos) (by_ : ControllerIncarnation) : MaintenanceJob :=
  let moved := { job with
    state := to_state
    block := reason
    block_detail := if reason = BlockReason.None then [] else detail
    last_detail := detail }
  let moved := moved.push_history
    { at_ := now, from_state := job.state, to_state, reason, detail, by_ }
  match to_state with
  | .InMaintenance => { moved with service_removed := true, started_at := now }
  | .Verifying => { moved with verification_started_at := now }
  | .Restoring => { moved with restoration_started_at := now }
  | .Complete | .Failed | .Cancelled => { moved with completed_at := now }
  | _ => moved

def closing_outcome : JobState → AttemptOutcome
  | .Complete => .Succeeded
  | .Failed => .Failed
  | _ => .Cancelled

/-- A terminal job has no running attempt. -/
def closed (job : MaintenanceJob) (to_state : JobState) (now : Nanos) : MaintenanceJob :=
  { job with
    attempts := job.attempts.map (fun a =>
      if a.id = job.active_attempt ∧ a.outcome = .Running then
        { a with outcome := closing_outcome to_state, ended_at := now }
      else a)
    active_attempt := {} }

/-- Does entering this state give up the job's authority and lease? -/
def gives_back (to_state : JobState) (service_removed : Bool) : Bool :=
  to_state.is_terminal || (to_state == .Blocked && !service_removed)

def transition_locked (d : Drive) (to_state : JobState) (reason : BlockReason) (detail : Text)
    (now : Nanos) : Bool × Drive :=
  if (check_transition d.job.state to_state d.job.service_removed).allowed then
    let moved := { d with job := entered d.job to_state reason detail now d.ctl.incarnation }
    let freed := if gives_back to_state moved.job.service_removed
      then moved.release_resources_locked else moved
    (true, if to_state.is_terminal then { freed with job := closed freed.job to_state now }
      else freed)
  else (false, d)

end Drive

/-! ## Evaluation -/

namespace Controller

/-- What counts as out of service besides the plan: every live reservation, and the scope of
    every other job that is in a removal stage. -/
def baseline_removed (c : Controller) (job : MaintenanceJob) (now : Nanos) : List TargetId :=
  c.store.state.jobs.jobs.rows.foldl (fun out other =>
    if decide (other.id = job.id) || !other.state.stage_removes_service then out
    else push_all_unique out other.removal_set) (c.store.state.ledger.reserved_targets now)

def impact_of (c : Controller) (job : MaintenanceJob) (readiness : ReadinessView) (now : Nanos) :
    CapacityImpact :=
  compute_impact
    { topology := c.topology, policy := c.policy, readiness
      baseline_removed := c.baseline_removed job now
      planned_removed := job.removal_set }

def precondition_context (c : Controller) (job : MaintenanceJob) (readiness : ReadinessView)
    (check_authority check_drain : Bool) (now : Nanos) : PreconditionContext :=
  { job, topology := c.topology, policy := c.policy, evidence := c.store.state.evidence
    ledger := c.store.state.ledger, jobs := c.store.state.jobs, readiness
    current := c.incarnation, now, check_authority, check_drain
    impact := c.impact_of job readiness now }

def evaluate_locked (c : Controller) (job : MaintenanceJob) (readiness : ReadinessView)
    (check_authority check_drain : Bool) (now : Nanos) : PreconditionSet :=
  evaluate_preconditions (c.precondition_context job readiness check_authority check_drain now)

/-- The first fresh completion record for the target, by ascending source, and its verdict. -/
def completion_for (c : Controller) (job : MaintenanceJob) (now : Nanos) (target : TargetId) :
    Option Bool :=
  PreconditionContext.scanned_sources.findSome? (fun source =>
    let key : EvidenceKey :=
      { kind := .MaintenanceCompletion, subject := EvidenceSubject.of target, source }
    match c.store.state.evidence.find key with
    | none => none
    | some record =>
        if (c.store.state.evidence.evaluate
            { key, current := c.incarnation, now, job := job.id
              attempt := job.active_attempt }).fresh
        then some record.payload.result else none)

/-- Is every target reported complete, and did one of the reports say failure? -/
def completion_confirmed_locked (c : Controller) (job : MaintenanceJob) (now : Nanos) :
    Bool × Bool :=
  (job.removal_set.all (fun t => (c.completion_for job now t).isSome),
   job.removal_set.any (fun t => c.completion_for job now t == some false))

/-- Does a scanned source hold a fresh negative restoration check for the target? -/
def restoration_refuted (c : Controller) (job : MaintenanceJob) (now : Nanos) (target : TargetId) :
    Bool :=
  PreconditionContext.scanned_sources.any (fun source =>
    let key : EvidenceKey :=
      { kind := .RestorationCheck, subject := EvidenceSubject.of target, source }
    match c.store.state.evidence.find key with
    | none => false
    | some record =>
        (c.store.state.evidence.evaluate
          { key, current := c.incarnation, now, job := job.id
            attempt := job.active_attempt }).fresh && !record.payload.result)

def quarantine_targets_locked (c : Controller) (job : MaintenanceJob) (reason : BlockReason)
    (detail : Text) (now : Nanos) : Controller :=
  job.removal_set.foldl (fun c target =>
    { c with store := (c.store.quarantine_target target job.id job.generation reason detail now
        c.incarnation).2 }) c

end Controller

/-! ## The drive functions

    Each returns whether the job copy must be committed. -/

namespace Drive

/-- The first requested target that rules the job out, with the block it causes. -/
def target_fault (topology : Topology) (target : TargetId) : Option (BlockReason × Text) :=
  match topology.target target with
  | none => some (.TargetUnknown,
      text "target " ++ target.to_string ++ text " is not declared in the topology")
  | some record =>
      if record.maintainable then none
      else some (.TargetNotMaintainable,
        text "target " ++ target.to_string ++ text " is marked not maintainable")

/-- Bind the job to the current topology and policy and expand its scope. -/
def expanded (c : Controller) (job : MaintenanceJob) : MaintenanceJob :=
  { job with
    removal_set := c.topology.removal_set job.targets
    policy_revision := c.policy.revision
    policy_digest := c.policy.digest
    topology_revision := c.topology.revision
    topology_digest := c.topology.digest
    owner := c.incarnation }

/-- Give the job an attempt if it has none. -/
def with_attempt (c : Controller) (job : MaintenanceJob) (now : Nanos) : MaintenanceJob :=
  if job.active_attempt.valid then job else c.new_attempt_locked job now

def drive_validated_locked (d : Drive) (context : PassContext) : Bool × Drive :=
  match d.job.targets.findSome? (target_fault d.ctl.topology) with
  | some (reason, detail) => d.transition_locked .Blocked reason detail context.now
  | none =>
      if !d.ctl.policy.tiers.isEmpty && !d.ctl.policy.known_tier d.job.priority then
        d.transition_locked .Blocked .PolicyDenied (text "priority tier " ++
          decimal d.job.priority ++ text " is not declared by policy") context.now
      else
        let job := with_attempt d.ctl (expanded d.ctl d.job) context.now
        { d with job }.transition_locked .Prerequisites .None (text "scope expanded to " ++
          decimal job.removal_set.length ++ text " target(s); prerequisites begin") context.now

/-- Leave for `Blocked`, naming the first violated precondition. -/
def block_on_violation (d : Drive) (evaluation : PreconditionSet) (now : Nanos) : Bool × Drive :=
  match evaluation.first_violated with
  | none => d.transition_locked .Blocked .PolicyDenied (text "precondition violated") now
  | some first => d.transition_locked .Blocked first.reason first.detail now

/-- The drain request of a job that has no lease yet, unless one is under way. -/
def request_drain (d : Drive) : Drive :=
  if d.job.id ∈ d.ctl.drain_inflight then d
  else
    let asked := d.push { kind := .Request, job := d.job.id, generation := d.job.generation
                          attempt := d.job.active_attempt, targets := d.job.removal_set
                          lease_duration := d.ctl.policy.drain_lease, reason := d.job.title }
    { asked with ctl := { d.ctl with drain_inflight := d.ctl.drain_inflight ++ [d.job.id] } }

/-- The part of `drive_prerequisites_locked` after the authority has been renewed. -/
def await_prerequisites (d : Drive) (context : PassContext) : Bool × Drive :=
  let now := context.now
  let policy := d.ctl.policy
  if d.job.requires_drain && !d.job.lease.valid then
    if d.job.drain_failures ≥ policy.max_drain_failures_before_block then
      d.transition_locked .Blocked .DrainFailed (text "drain failed " ++
        decimal d.job.drain_failures ++ text " time(s); policy bound is " ++
        decimal policy.max_drain_failures_before_block) now
    else (false, d.request_drain)
  else
    let evaluation := d.ctl.evaluate_locked d.job context.readiness true true now
    if evaluation.violated > 0 then d.block_on_violation evaluation now
    else if evaluation.pending > 0 then
      (true, { d with job := { d.job with
        preconditions_at := now
        preconditions_digest := evaluation.digest
        preconditions_satisfied := false
        last_detail := text "waiting for prerequisites: " ++ decimal evaluation.pending ++
          text " pending" } })
    else
      let job := { d.job with
        preconditions_at := now
        preconditions_digest := evaluation.digest
        preconditions_policy_revision := evaluation.policy_revision
        preconditions_topology_revision := evaluation.topology_revision
        preconditions_satisfied := true }
      { d with job }.transition_locked .Ready .None
        (text "every precondition authoritatively satisfied (digest " ++
          hex_u64 evaluation.digest ++ text ")") now

/-- Does this refusal mean that the reservation is not the job's any more? -/
def authority_lost (e : Error) : Bool :=
  e.code == .NotFound || e.code == .StaleIncarnation || e.code == .StaleAttempt

def drive_prerequisites_locked (d : Drive) (context : PassContext) : Bool × Drive :=
  let now := context.now
  if !d.job.active_attempt.valid then
    (true, { d with job := d.ctl.new_attempt_locked d.job now })
  else if !d.job.authority.valid then (false, d)
  else
    match d.ctl.store.state.ledger.find d.job.authority with
    | none => (true, { d with job := { d.job with authority := ⟨0⟩ } })
    | some held =>
        let margin := renewal_margin d.ctl.policy
        if held.expires_at - now ≤ margin then
          let renewed := d.ctl.store.renew_authority d.job.authority d.job.active_attempt
            d.ctl.incarnation margin now
          let d := { d with ctl := { d.ctl with store := renewed.2 } }
          match renewed.1 with
          | .error e =>
              if authority_lost e then (true, { d with job := { d.job with authority := ⟨0⟩ } })
              else d.transition_locked .Blocked .AuthorityDenied e.detail now
          | .ok _ => d.await_prerequisites context
        else d.await_prerequisites context

def start_job (c : Controller) (job : MaintenanceJob) (evaluation : PreconditionSet)
    (window : WindowEvaluation) (now : Nanos) : MaintenanceJob :=
  { job with
    window := window.window
    window_closes_at := if window.verdict = .Open then window.closes_at else 0
    on_close :=
      if window.verdict = .Open then
        ((c.policy.window window.window).map Window.on_close).getD .FinishActiveStep
      else .FinishActiveStep
    preconditions_digest := evaluation.digest
    preconditions_at := now }

def drive_ready_locked (d : Drive) (context : PassContext) : Bool × Drive :=
  let now := context.now
  let policy := d.ctl.policy
  let evaluation := d.ctl.evaluate_locked d.job context.readiness true true now
  if evaluation.violated > 0 then d.block_on_violation evaluation now
  else if evaluation.pending > 0 then
    d.transition_locked .Prerequisites .None
      (text "prerequisites are no longer fully satisfied") now
  else if now - d.job.preconditions_at > policy.max_precondition_age then
    d.transition_locked .Prerequisites .EvidenceMissingOrStale
      (text "the recorded precondition evaluation is " ++
        format_duration (now - d.job.preconditions_at) ++
        text " old and exceeds the policy bound of " ++
        format_duration policy.max_precondition_age) now
  else
    let window := evaluate_window policy.windows d.job.targets now policy.require_window
    { d with job := start_job d.ctl d.job evaluation window now }.transition_locked
      .InMaintenance .None (text "service removal begins under window " ++
        window.window.to_string ++ text " (verdict " ++ window.verdict.to_string ++ text ")") now

def drive_blocked_locked (d : Drive) (context : PassContext) : Bool × Drive :=
  let now := context.now
  let policy_changed := d.job.policy_revision.valid &&
    decide (d.job.policy_revision ≠ d.ctl.policy.revision)
  let topology_changed := d.job.topology_revision.valid &&
    decide (d.job.topology_revision ≠ d.ctl.topology.revision)
  if is_hard_block d.job.block && !policy_changed && !topology_changed then (false, d)
  else if decide (now - d.job.updated_at < kSoftBlockDwellNanos) && !policy_changed &&
      !topology_changed then (false, d)
  else
    let previous := d.job.block.to_string
    if d.job.service_removed then
      { d with job := with_attempt d.ctl d.job now }.transition_locked .Verifying d.job.block
        (text "resuming after block '" ++ previous ++
          text "' with service already removed; verification is mandatory") now
    else
      d.transition_locked .Prerequisites .None
        (text "resuming after block '" ++ previous ++ text "'") now

def abort_grace (c : Controller) (job : MaintenanceJob) : Nanos :=
  match c.policy.window job.window with
  | none => kAbortGraceFallbackNanos
  | some window =>
      if window.abort_grace > 0 then window.abort_grace else kAbortGraceFallbackNanos

/-- The end of `drive_in_maintenance_locked`: on to verification once every target reported. -/
def finish_step (d : Drive) (complete any_failed : Bool) (now : Nanos) : Bool × Drive :=
  if !complete then (false, d)
  else
    { d with job := if any_failed then { d.job with maintenance_failed := true } else d.job
      }.transition_locked .Verifying .None
      (if any_failed then
        text "the maintenance action reported failure; the scope is verified and restored before the job closes as failed"
       else text "maintenance action complete; post-maintenance verification begins") now

def drive_in_maintenance_locked (d : Drive) (context : PassContext) : Bool × Drive :=
  let now := context.now
  let (complete, any_failed) := d.ctl.completion_confirmed_locked d.job now
  if d.job.window_closes_at > 0 ∧ now ≥ d.job.window_closes_at then
    match d.job.on_close with
    | .AbortAndRestore =>
        if !complete && decide (now > d.job.window_closes_at + abort_grace d.ctl d.job) then
          let ctl := d.ctl.quarantine_targets_locked d.job .WindowUnavailable
            (text "window closed while the maintenance action was running and the attempt did not report completion within the abort grace") now
          { d with ctl }.transition_locked .Failed .WindowUnavailable
            (text "abort-and-restore deadline expired without a completion report") now
        else d.finish_step complete any_failed now
    | .ExtendToComplete =>
        if !d.job.window_extended then
          (true, { d with job := { d.job with
            window_extended := true
            last_detail := text "policy extended the window so the active step can complete" } })
        else d.finish_step complete any_failed now
    | .FinishActiveStep =>
        if !d.job.overrun then
          (true, { d with job := { d.job with
            overrun := true
            last_detail :=
              text "window closed while the active step was running; the step is allowed to finish and the overrun is recorded" } })
        else d.finish_step complete any_failed now
  else d.finish_step complete any_failed now

/-- Not shown to be serving by the pass's view. -/
def unproven (readiness : ReadinessView) (target : TargetId) : Bool :=
  !readiness.is_fresh target || !(readiness.health_of target).is_serving

def drive_verifying_locked (d : Drive) (context : PassContext) : Bool × Drive :=
  let now := context.now
  let job := d.job
  let gaps := job.removal_set.filter (unproven context.readiness)
  let negative_report := job.removal_set.any (d.ctl.restoration_refuted job now)
  if !gaps.isEmpty || negative_report then
    if now - job.verification_started_at > job.estimated_duration then
      let failures := job.verification_failures + 1
      let failed := { job with verification_failures := failures }
      if failures ≥ d.ctl.policy.max_verification_attempts then
        let ctl := d.ctl.quarantine_targets_locked failed .VerificationFailed
          (text "post-maintenance verification never proved the scope healthy") now
        { d with ctl, job := failed }.transition_locked .Failed .VerificationFailed
          (text "verification failed after " ++ decimal failures ++ text " round(s)") now
      else
        (true, { d with job := { failed with
          verification_started_at := now
          last_detail := text "verification round " ++ decimal failures ++
            text " exhausted; retrying with fresh evidence" } })
    else
      (true, { d with job := { job with
        last_detail :=
          if negative_report then text "a restoration check reported failure for the scope"
          else text "waiting for fresh healthy evidence for " ++ decimal gaps.length ++
            text " target(s)" } })
  else
    { d with job := { job with verification_passes := job.verification_passes + 1 }
      }.transition_locked .Restoring .None
      (text "post-maintenance verification passed with fresh evidence for " ++
        decimal job.removal_set.length ++ text " target(s)") now

/-- Ask for the lease back, unless that is already under way. -/
def request_release (d : Drive) : Drive :=
  if d.job.id ∈ d.ctl.drain_inflight ∨ d.job.lease ∈ d.ctl.queued_releases then d
  else
    let asked := d.push { kind := .Release, job := d.job.id, generation := d.job.generation
                          attempt := d.job.active_attempt, lease := d.job.lease
                          reason := text "restoration complete" }
    { asked with ctl := { d.ctl with queued_releases := d.ctl.queued_releases ++ [d.job.lease] } }

/-- The explicit restoration verdict, one record per target. -/
def record_restoration (c : Controller) (job : MaintenanceJob) (context : PassContext) :
    Controller :=
  job.removal_set.foldl (fun c target =>
    (c.author_evidence .RestorationCheck target ⟨1⟩ context.now
      { result := true, health := context.readiness.health_of target } job.id
      job.active_attempt).2) c

def drive_restoring_locked (d : Drive) (context : PassContext) : Bool × Drive :=
  let now := context.now
  let job := d.job
  if job.lease.valid then (false, d.request_release)
  else
    match job.removal_set.filter (fun t =>
        (d.ctl.store.state.quarantines.find_open_for_target t).isSome ||
          unproven context.readiness t) with
    | first :: rest =>
        let gaps := (first :: rest).length
        if now - job.restoration_started_at > job.estimated_duration then
          let failures := job.restoration_failures + 1
          let failed := { job with restoration_failures := failures }
          if failures ≥ d.ctl.policy.max_restoration_attempts then
            let ctl := d.ctl.quarantine_targets_locked failed .RestorationFailed
              (text "restoration never proved the scope healthy") now
            { d with ctl, job := failed }.transition_locked .Failed .RestorationFailed
              (text "restoration failed for " ++ first.to_string ++ text " (" ++ decimal gaps ++
                text " target(s))") now
          else
            (true, { d with job := { failed with
              restoration_started_at := now
              last_detail := text "restoration round " ++ decimal failures ++
                text " exhausted; retrying with fresh evidence" } })
        else
          (true, { d with job := { job with
            last_detail := text "waiting for restoration evidence for " ++ decimal gaps ++
              text " target(s)" } })
    | [] =>
        let d := { d with ctl := record_restoration d.ctl job context }
        if job.maintenance_failed then
          d.transition_locked .Failed .VerificationFailed
            (text "service restored, but the maintenance action itself failed") now
        else
          d.transition_locked .Complete .None (text "scope returned to service and verified") now

/-- The function for the job's state; `Proposed` and the terminal states have none. -/
def drive_state (d : Drive) (context : PassContext) : Bool × Drive :=
  match d.job.state with
  | .Validated => d.drive_validated_locked context
  | .Prerequisites => d.drive_prerequisites_locked context
  | .Ready => d.drive_ready_locked context
  | .Blocked => d.drive_blocked_locked context
  | .InMaintenance => d.drive_in_maintenance_locked context
  | .Verifying => d.drive_verifying_locked context
  | .Restoring => d.drive_restoring_locked context
  | .Proposed | .Complete | .Cancelled | .Failed => (false, d)

end Drive

namespace Controller

/-- Drive one job and commit its copy if the drive changed it. -/
def drive_locked (c : Controller) (id : JobId) (context : PassContext)
    (actions : List DrainAction) : Controller × List DrainAction :=
  match c.store.state.jobs.find id with
  | none => (c, actions)
  | some current =>
      if current.is_terminal then (c, actions)
      else
        let driven :=
          Drive.drive_state { ctl := c, job := current, actions := some actions } context
        let d := driven.2
        (if driven.1 then (d.ctl.commit_job_locked d.job context.now).2 else d.ctl,
          d.actions.getD [])

/-! ## Arbitration -/

/-- Does the job wait for authority it does not hold yet? -/
def wants_authority (c : Controller) (now : Nanos) (job : MaintenanceJob) : Bool :=
  decide (job.state = .Prerequisites) && job.active_attempt.valid &&
    !(c.store.state.ledger.find_for_job job.id job.generation).any (fun held =>
      held.live_at now && decide (held.attempt = job.active_attempt))

def arbitration_candidates (c : Controller) (now : Nanos) : List JobId :=
  ((c.store.state.jobs.jobs.rows.filter (c.wants_authority now)).map MaintenanceJob.id).take
    limits.kMaxJobsPerArbitration

def arbitration_context (c : Controller) (context : PassContext) : ArbitrationContext :=
  { topology := c.topology, policy := c.policy, readiness := context.readiness
    jobs := c.store.state.jobs, candidates := c.arbitration_candidates context.now
    current := c.incarnation, now := context.now }

def apply_denial (c : Controller) (decision : ArbitrationDecision) (now : Nanos) : Controller :=
  match c.store.state.jobs.find decision.job with
  | none => c
  | some denied =>
      if denied.state ≠ .Prerequisites ∨ denied.authority.valid = true then c
      else
        let blocked := (Drive.transition_locked { ctl := c, job := denied, actions := some [] }
          .Blocked decision.reason decision.detail now).2
        (blocked.ctl.commit_job_locked blocked.job now).2

/-- The staged reservation is installed before the job learns about it. -/
def apply_grant (c : Controller) (staging : AuthorityLedger) (decision : ArbitrationDecision)
    (now : Nanos) : Controller :=
  match c.store.state.jobs.find decision.job, staging.find decision.authority with
  | some current, some granted =>
      match c.store.insert_authority granted with
      | (.error _, store) => { c with store }
      | (.ok _, store) =>
          ({ c with store }.commit_job_locked { current with
            authority := decision.authority
            preconditions_at := now
            preconditions_digest := decision.impact_digest
            last_detail := text "maintenance authority " ++ decision.authority.to_string ++
              text " granted by arbitration at position " ++ decimal decision.position ++
              text " [" ++ decision.ordering_key ++ text "]" } now).2
  | _, _ => c

def apply_decision (staging : AuthorityLedger) (now : Nanos) (c : Controller)
    (decision : ArbitrationDecision) : Controller :=
  match decision.outcome with
  | .Denied => c.apply_denial decision now
  | .Granted => c.apply_grant staging decision now
  | .Deferred => c

def arbitrate_locked (c : Controller) (context : PassContext) : Controller :=
  let (decisions, staging) := arbitrate (c.arbitration_context context) c.store.state.ledger
  decisions.foldl (apply_decision staging context.now) c

/-! ## The end of a pass -/

def owns_lease (c : Controller) (id : DrainLeaseId) : Bool :=
  c.store.state.jobs.jobs.rows.any (fun job => decide (job.lease = id) && !job.is_terminal)

/-- Ask for the leases no live job owns. -/
def sweep_orphans (c : Controller) (actions : List DrainAction) : Controller × List DrainAction :=
  let orphans := c.store.state.leases.rows.filter (fun lease =>
    !(c.owns_lease lease.id || decide (lease.state = .Released) ||
      decide (lease.id ∈ c.queued_releases)))
  ({ c with queued_releases := c.queued_releases ++ orphans.map DrainLease.id },
    actions ++ orphans.map (fun lease =>
      { kind := .Release, lease := lease.id, reason := text "orphaned drain lease" }))

end Controller

end MaintenanceFabric
