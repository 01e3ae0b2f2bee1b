import MaintenanceFabric.Engine.Impact

/-! # Authority acquisition and arbitration

    `acquire_authority` is the joint-safety check: a plan is projected against
    the union of every live reservation before it may reserve.  `arbitrate`
    runs it over the candidates in a fixed total order, on a staging copy of
    the ledger.
-/

namespace MaintenanceFabric

/-! ## Acquisition -/

structure AuthorityAcquireContext where
  topology : Topology
  policy : Policy
  readiness : ReadinessView
  ledger : AuthorityLedger
  job : JobId
  generation : GenerationId
  attempt : AttemptId
  removal_set : List TargetId
  current : ControllerIncarnation
  now : Nanos

namespace AuthorityAcquireContext

variable (c : AuthorityAcquireContext)

/-- The first target of the plan another job's live reservation already covers. -/
def overlap (r : AuthorityReservation) : Option TargetId :=
  if !r.live_at c.now || (decide (r.job = c.job) && decide (r.generation = c.generation)) then none
  else c.removal_set.find? r.covers

def first_overlap : Option (AuthorityReservation × TargetId) :=
  c.ledger.reservations.rows.findSome? (fun r => (c.overlap r).map (fun t => (r, t)))

def impact : CapacityImpact :=
  compute_impact
    { topology := c.topology, policy := c.policy, readiness := c.readiness
      baseline_removed := c.ledger.reserved_targets c.now
      planned_removed := c.removal_set }

/-- The reservation that would be recorded. -/
def reservation : AuthorityReservation :=
  let targets := sorted_unique c.removal_set
  let lease := clamp c.policy.authority_lease limits.kMinDrainLeaseNanos
    limits.kMaxAuthorityLeaseNanos
  { job := c.job
    generation := c.generation
    attempt := c.attempt
    owner := c.current
    targets
    domains := c.topology.domains_of targets
    pools := c.topology.pools_of targets
    granted_at := c.now
    expires_at := c.now + lease }

end AuthorityAcquireContext

open AuthorityAcquireContext in
/-- Grant the plan a reservation, or say which rule refuses it. The second component is the
    projection handed out to the caller, which only the last two stages compute. -/
def acquire_authority (c : AuthorityAcquireContext) :
    Result (AuthorityReservation × AuthorityLedger) × Option CapacityImpact :=
  if !c.job.valid || !c.generation.valid || !c.attempt.valid then
    (.error (invalid_argument
      (text "authority acquisition requires job, generation and attempt identity")), none)
  else if c.removal_set.isEmpty then
    (.error (invalid_argument
      (text "authority acquisition requires a non-empty removal set")), none)
  else
    match c.readiness.unfresh c.removal_set with
    | first :: rest =>
        (.error (make_error .StaleEvidence (text "no fresh health evidence for target " ++
          first.to_string ++ text " (" ++ decimal (first :: rest).length ++ text " of " ++
          decimal c.removal_set.length ++ text " target(s) in the removal set)")), none)
    | [] =>
        match c.first_overlap with
        | some (r, target) =>
            (.error (make_error .PolicyDenied (text "maintenance authority " ++ r.id.to_string ++
              text " held by job " ++ r.job.to_string ++ text " already covers target " ++
              target.to_string)), none)
        | none =>
            if c.impact.satisfied = false then
              (.error (make_error .PolicyDenied (text "removal would violate " ++
                (c.impact.block_reason.getD .PolicyDenied).to_string ++ text ": " ++
                c.impact.first_violation)), some c.impact)
            else (c.ledger.reserve c.reservation, some c.impact)

/-- A plan that gets a reservation has a valid token and scope, and passed every check. -/
theorem acquire_authority_ok {c : AuthorityAcquireContext} {g : AuthorityReservation}
    {l : AuthorityLedger} (h : (acquire_authority c).1 = .ok (g, l)) :
    c.ledger.reserve c.reservation = .ok (g, l) ∧ c.removal_set ≠ [] ∧
      c.readiness.unfresh c.removal_set = [] ∧ c.first_overlap = none ∧
      c.impact.satisfied = true := by
  unfold acquire_authority at h
  split at h
  · cases h
  · split at h
    · cases h
    · next hne =>
      split at h
      · cases h
      · next hfresh =>
        split at h
        · cases h
        · next hoverlap =>
          split at h
          · cases h
          · next himpact =>
            exact ⟨h, by simpa using hne, hfresh, hoverlap, by simpa using himpact⟩

/-! ## Arbitration -/

inductive ArbitrationOutcome where
  | Granted | Denied | Deferred
  deriving DecidableEq, Repr

def ArbitrationOutcome.code : ArbitrationOutcome → Nat
  | .Granted => 0
  | .Denied => 1
  | .Deferred => 2

structure ArbitrationCandidate where
  job : JobId
  tier_rank : Nat
  created_at : Nanos
  ordering_key : Text

structure ArbitrationDecision where
  job : JobId
  outcome : ArbitrationOutcome
  position : Nat
  tier_rank : Nat
  created_at : Nanos
  ordering_key : Text
  reason : BlockReason := .None
  detail : Text
  authority : AuthorityId := ⟨0⟩
  impact_digest : UInt64 := 0

def candidate_of (policy : Policy) (job : MaintenanceJob) : ArbitrationCandidate :=
  let tier_rank := policy.tier_rank job.priority
  { job := job.id
    tier_rank
    created_at := job.created_at
    ordering_key := text "tier=" ++ decimal job.priority ++ text " rank=" ++ decimal tier_rank ++
      text " created=" ++ decimalInt job.created_at ++ text " job=" ++ job.id.to_string }

/-- Tier rank, then creation time, then job id. -/
def candidate_le (a b : ArbitrationCandidate) : Bool :=
  if a.tier_rank ≠ b.tier_rank then decide (a.tier_rank < b.tier_rank)
  else if a.created_at ≠ b.created_at then decide (a.created_at < b.created_at)
  else decide (a.job ≤ b.job)

def order_candidates (jobs : List MaintenanceJob) (policy : Policy) : List ArbitrationCandidate :=
  (jobs.map (candidate_of policy)).insertionSort (fun a b => candidate_le a b = true)

structure ArbitrationContext where
  topology : Topology
  policy : Policy
  readiness : ReadinessView
  jobs : JobTable
  candidates : List JobId
  current : ControllerIncarnation
  now : Nanos

namespace ArbitrationContext

variable (c : ArbitrationContext)

def acquire_context (ledger : AuthorityLedger) (job : MaintenanceJob) : AuthorityAcquireContext :=
  { topology := c.topology, policy := c.policy, readiness := c.readiness, ledger
    job := job.id, generation := job.generation, attempt := job.active_attempt
    removal_set := job.removal_set, current := c.current, now := c.now }

/-- Why a refused plan is blocked. The overlap case is recognised by its message. -/
def denial_reason (e : Error) (impact : Option CapacityImpact) : BlockReason :=
  if e.code = .StaleEvidence then .EvidenceMissingOrStale
  else if Text.hasPiece (text "already covers target") e.detail then .ConflictingMaintenance
  else (impact.bind CapacityImpact.block_reason).getD .AuthorityDenied

/-- Decide one candidate against the staging ledger. -/
def decide_candidate (candidate : ArbitrationCandidate) (position granted : Nat)
    (ledger : AuthorityLedger) : ArbitrationDecision × AuthorityLedger :=
  let decision (outcome : ArbitrationOutcome) (reason : BlockReason) (detail : Text)
      (authority : AuthorityId) (impact_digest : UInt64) : ArbitrationDecision :=
    { job := candidate.job, outcome, position, tier_rank := candidate.tier_rank
      created_at := candidate.created_at, ordering_key := candidate.ordering_key, reason
      detail, authority, impact_digest }
  match c.jobs.find candidate.job with
  | none =>
      (decision .Denied .TargetUnknown (text "job disappeared during arbitration") ⟨0⟩ 0, ledger)
  | some job =>
      match (ledger.find_for_job job.id job.generation).filter (fun r =>
          job.active_attempt.valid && r.live_at c.now &&
            decide (r.attempt = job.active_attempt)) with
      | some existing =>
          (decision .Deferred .None (text "job already holds live maintenance authority " ++
            existing.id.to_string) existing.id 0, ledger)
      | none =>
          if granted ≥ c.policy.max_concurrent_jobs then
            (decision .Denied .AuthorityDenied (text "concurrency limit reached: policy allows " ++
              decimal c.policy.max_concurrent_jobs ++ text " concurrent maintenance job(s)") ⟨0⟩ 0,
              ledger)
          else
            match acquire_authority (c.acquire_context ledger job) with
            | (.error e, impact) =>
                (decision .Denied (denial_reason e impact) e.detail ⟨0⟩
                  ((impact.map CapacityImpact.digest).getD 0), ledger)
            | (.ok (reservation, staged), impact) =>
                (decision .Granted .None (text "granted maintenance authority " ++
                  reservation.id.to_string ++ text " with " ++
                  ((impact.map CapacityImpact.summary).getD [])) reservation.id
                  ((impact.map CapacityImpact.digest).getD 0), staged)

/-- Decide the candidates in order; grants so far count against the concurrency limit. -/
def decide_all : List ArbitrationCandidate → Nat → Nat → AuthorityLedger →
    List ArbitrationDecision × AuthorityLedger
  | [], _, _, ledger => ([], ledger)
  | candidate :: rest, position, granted, ledger =>
      let (decision, ledger) := c.decide_candidate candidate position granted ledger
      let granted := if decision.outcome = .Granted then granted + 1 else granted
      let (decisions, ledger) := decide_all rest (position + 1) granted ledger
      (decision :: decisions, ledger)

end ArbitrationContext

def arbitrate (c : ArbitrationContext) (ledger : AuthorityLedger) :
    List ArbitrationDecision × AuthorityLedger :=
  c.decide_all (order_candidates (c.candidates.filterMap c.jobs.find) c.policy) 0 0 ledger

structure ArbitrationReport where
  decisions : List ArbitrationDecision
  «at» : Nanos
  «by» : ControllerIncarnation
  policy_revision : Revision
  topology_revision : Revision
  policy_digest : UInt64
  topology_digest : UInt64
  granted : Nat
  denied : Nat
  deferred : Nat
  digest : UInt64

def digest_decision (d : Digest) (decision : ArbitrationDecision) : Digest :=
  ((((((((d.update_u64 decision.job.value).update_u32 decision.outcome.code).update_u64
    decision.position).update_u32 decision.tier_rank).update_i64 decision.created_at).update
    decision.ordering_key).update_u32 decision.reason.code).update decision.detail).update_u64
    decision.authority.value

/-- What `arbitrate` hands back beside the ledger it has changed. -/
def arbitration_report (c : ArbitrationContext) (ledger : AuthorityLedger) : ArbitrationReport :=
  let decisions := (arbitrate c ledger).1
  let d := ((({} : Digest).update (text "mf.arbitration.v1")).update_i64 c.now).update
    c.current.to_string
  let d := ((d.update_u64 c.policy.revision.value).update_u64
    c.policy.digest.toNat).update_u64 c.topology.revision.value
  let d := d.update_u64 c.topology.digest.toNat
  { decisions
    «at» := c.now
    «by» := c.current
    policy_revision := c.policy.revision
    topology_revision := c.topology.revision
    policy_digest := c.policy.digest
    topology_digest := c.topology.digest
    granted := (decisions.filter (fun x => x.outcome = .Granted)).length
    denied := (decisions.filter (fun x => x.outcome = .Denied)).length
    deferred := (decisions.filter (fun x => x.outcome = .Deferred)).length
    digest := (decisions.foldl digest_decision d).value }

/-! ## Scheduling -/

/-- Margin before expiry at which a lease is renewed. -/
def renewal_margin (policy : Policy) : Nanos :=
  let margin := policy.authority_lease.tdiv 4
  if margin < kNanosPerSecond then kNanosPerSecond else margin

/-- Does a tick have work for a job in this state? -/
def schedulable : JobState → Bool
  | .Validated | .Prerequisites | .Ready | .Blocked | .InMaintenance | .Verifying | .Restoring =>
      true
  | .Proposed | .Complete | .Cancelled | .Failed => false

/-- The jobs a pass drives, ascending. -/
def plan_tick (jobs : JobTable) : List JobId :=
  (jobs.jobs.rows.filter (fun j => schedulable j.state)).map MaintenanceJob.id

end MaintenanceFabric
