import MaintenanceFabric.Core.Hash
import MaintenanceFabric.Domain.Evidence
import MaintenanceFabric.Domain.Window

/-! # Policy

    Redundancy, failure-domain limits, headroom, contracts, windows, tiers and
    the scalar settings, all supplied by the operator.  Counts are 32-bit in
    the source; `wrap32` marks the places where a sum is taken in that width.
-/

namespace MaintenanceFabric

open Lib

/-- The value of an unsigned 32-bit sum. -/
def wrap32 (n : Nat) : Nat := n % 4294967296

structure RedundancyRule where
  pool : PoolId
  min_viable : Nat := 1
  tolerated_losses : Nat := 0
  name : Text := []
  deriving DecidableEq, Repr

def RedundancyRule.required_serving_units (r : RedundancyRule) : Nat :=
  wrap32 (r.min_viable + r.tolerated_losses)

structure DomainLimitRule where
  domain : DomainId
  max_out : Nat := 1
  name : Text := []
  deriving DecidableEq, Repr

structure HeadroomRule where
  pool : PoolId
  reserve_units : Nat := 0
  name : Text := []
  deriving DecidableEq, Repr

structure Contract where
  id : ContractId
  name : Text := []
  members : List TargetId
  min_available : Nat := 1
  require_fresh_evidence : Bool := true
  deriving DecidableEq, Repr

structure PriorityTier where
  index : Nat
  name : Text := []
  deriving DecidableEq, Repr

structure Policy where
  redundancy : List RedundancyRule := []
  domain_limits : List DomainLimitRule := []
  headroom : List HeadroomRule := []
  contracts : List Contract := []
  windows : List Window := []
  tiers : List PriorityTier := []
  evidence_ttl : Table (Prod.fst : EvidenceKind × Nanos → EvidenceKind) := Table.empty
  min_evidence_sources : Nat := 1
  require_window : Bool := false
  max_precondition_age : Nanos := limits.kMaxPreconditionAgeNanos
  default_duration : Nanos := 10 * kNanosPerMinute
  max_concurrent_jobs : Nat := 64
  authority_lease : Nanos := limits.kDefaultAuthorityLeaseNanos
  drain_lease : Nanos := limits.kDefaultDrainLeaseNanos
  max_drain_failures_before_block : Nat := 3
  max_verification_attempts : Nat := 3
  max_restoration_attempts : Nat := 3
  revision : Revision := ⟨0⟩

def default_redundancy_rule (pool : PoolId) : RedundancyRule :=
  { pool, min_viable := 1, tolerated_losses := 0, name := text "conservative-default" }

namespace Policy

/-! ## Lookups -/

/-- The first rule for the pool, or the conservative default. -/
def redundancy_for (p : Policy) (pool : PoolId) : RedundancyRule :=
  (p.redundancy.find? (fun r => r.pool = pool)).getD (default_redundancy_rule pool)

def headroom_for (p : Policy) (pool : PoolId) : Option HeadroomRule :=
  p.headroom.find? (fun r => r.pool = pool)

def domain_limits_for (p : Policy) (domain : DomainId) : List DomainLimitRule :=
  p.domain_limits.filter (fun r => r.domain = domain)

def contracts_touching (p : Policy) (targets : List TargetId) : List Contract :=
  sort_by Contract.id (p.contracts.filter (fun c => c.members.any (fun m => decide (m ∈ targets))))

def ttl_for (p : Policy) (kind : EvidenceKind) : Nanos :=
  ((p.evidence_ttl.find kind).map Prod.snd).getD limits.kDefaultEvidenceTtlNanos

/-- Rank of a priority tier; unknown tiers sort last. -/
def tier_rank (p : Policy) (tier_index : Nat) : Nat :=
  let indices := sorted_unique (p.tiers.map PriorityTier.index)
  indices.findIdx (· = tier_index)

def known_tier (p : Policy) (tier_index : Nat) : Bool := p.tiers.any (fun t => t.index = tier_index)

def window (p : Policy) (id : WindowId) : Option Window := p.windows.find? (fun w => w.id = id)

/-! ## Validation -/

def check_redundancy (rule : RedundancyRule) : Status := do
  refuse_if (!rule.pool.valid)
    (invalid_argument (text "redundancy rule references an invalid pool"))
  refuse_if (rule.min_viable = 0)
    (invalid_argument (text "redundancy rule min_viable must be at least one"))
  refuse_if (wrap32 (rule.min_viable + rule.tolerated_losses) < rule.min_viable)
    (make_error .Overflow (text "redundancy rule requirement overflowed"))

def check_domain_limit (rule : DomainLimitRule) : Status := do
  refuse_if (!rule.domain.valid)
    (invalid_argument (text "failure-domain rule references an invalid domain"))
  refuse_if (rule.max_out = 0)
    (invalid_argument (text "failure-domain rule max_out must be at least one"))

def check_contract (entry : Contract) : Status := do
  refuse_if (!entry.id.valid) (invalid_argument (text "contract id is not valid"))
  refuse_if entry.members.isEmpty
    (invalid_argument (text "contract " ++ entry.id.to_string ++ text " has no members"))
  refuse_if (entry.min_available = 0 ∨ entry.min_available > entry.members.length)
    (invalid_argument (text "contract " ++ entry.id.to_string ++
      text " min_available is out of range"))
  refuse_if (repeats entry.members)
    (invalid_argument (text "contract " ++ entry.id.to_string ++ text " repeats a member"))

def check_window (window : Window) : Status := do
  refuse_if (!window.id.valid) (invalid_argument (text "window id is not valid"))
  refuse_if (window.closes_at ≤ window.opens_at)
    (invalid_argument (text "window " ++ window.id.to_string ++ text " closes before it opens"))
  refuse_if (window.min_lead_time < 0 ∨ window.abort_grace < 0)
    (invalid_argument (text "window " ++ window.id.to_string ++
      text " has a negative duration bound"))
  refuse_if (window.targets.length > limits.kMaxWindowTargets)
    (make_error .LimitExceeded (text "window target list is too large"))

def check_ttl (entry : EvidenceKind × Nanos) : Status :=
  refuse_if (entry.2 < limits.kMinEvidenceTtlNanos ∨ entry.2 > limits.kMaxEvidenceTtlNanos)
    (invalid_argument (text "evidence ttl for " ++ entry.1.to_string ++ text " is out of range"))

/-- The first tier whose index an earlier one already declared. -/
def check_tiers : List Nat → List PriorityTier → Status
  | _, [] => ok_status
  | seen, tier :: tiers => do
      refuse_if (tier.index ∈ seen) (invalid_argument
        (text "priority tier " ++ decimal tier.index ++ text " is declared twice"))
      check_tiers (tier.index :: seen) tiers

def validate (p : Policy) : Status := do
  refuse_if (p.redundancy.length > limits.kMaxRedundancyRules)
    (make_error .LimitExceeded (text "too many redundancy rules"))
  refuse_if (p.domain_limits.length > limits.kMaxDomainLimitRules)
    (make_error .LimitExceeded (text "too many failure-domain limit rules"))
  refuse_if (p.contracts.length > limits.kMaxContracts)
    (make_error .LimitExceeded (text "too many availability contracts"))
  refuse_if (p.windows.length > limits.kMaxWindowRules)
    (make_error .LimitExceeded (text "too many maintenance windows"))
  refuse_if (p.tiers.length > limits.kMaxPriorityTiers)
    (make_error .LimitExceeded (text "too many priority tiers"))
  refuse_if (p.min_evidence_sources = 0 ∨ p.min_evidence_sources > limits.kMaxEvidenceSourcesPerKey)
    (invalid_argument (text "min_evidence_sources is out of range"))
  refuse_if (p.max_precondition_age ≤ 0 ∨ p.max_precondition_age > limits.kMaxPreconditionAgeNanos)
    (invalid_argument (text "max_precondition_age is out of range"))
  refuse_if (p.default_duration ≤ 0) (invalid_argument (text "default_duration must be positive"))
  refuse_if (p.max_concurrent_jobs = 0 ∨ p.max_concurrent_jobs > limits.kMaxLiveReservations)
    (invalid_argument (text "max_concurrent_jobs is out of range"))
  refuse_if (p.authority_lease < limits.kMinDrainLeaseNanos ∨
      p.authority_lease > limits.kMaxAuthorityLeaseNanos)
    (invalid_argument (text "authority_lease is out of range"))
  refuse_if (p.drain_lease < limits.kMinDrainLeaseNanos ∨
      p.drain_lease > limits.kMaxDrainLeaseNanos)
    (invalid_argument (text "drain_lease is out of range"))
  refuse_if (p.max_drain_failures_before_block = 0 ∨ p.max_verification_attempts = 0 ∨
      p.max_restoration_attempts = 0)
    (invalid_argument (text "retry bounds must be at least one"))
  refuse_if (!p.known_tier 0 && !p.tiers.isEmpty)
    (invalid_argument (text "priority tier 0 must be declared"))
  check_all check_redundancy p.redundancy
  check_all check_domain_limit p.domain_limits
  check_all check_contract p.contracts
  check_all check_window p.windows
  check_all check_ttl p.evidence_ttl.rows
  check_tiers [] p.tiers

/-! ## Digest -/

def digest_targets (d : Digest) (targets : List TargetId) : Digest :=
  targets.foldl (fun d t => (d.update_u32 t.kind.code).update_u32 t.index)
    (d.update_u64 targets.length)

def digest (p : Policy) : UInt64 :=
  let d := ({} : Digest).update (text "mf.policy.v1")
  let d := p.redundancy.foldl (fun d r => (((d.update_u64 r.pool.value).update_u32
    r.min_viable).update_u32 r.tolerated_losses).update r.name) (d.update_u64 p.redundancy.length)
  let d := p.domain_limits.foldl (fun d r => (((d.update_u32 r.domain.kind.code).update_u32
    r.domain.index).update_u32 r.max_out).update r.name) (d.update_u64 p.domain_limits.length)
  let d := p.headroom.foldl (fun d r => ((d.update_u64 r.pool.value).update_u32
    r.reserve_units).update r.name) (d.update_u64 p.headroom.length)
  let d := p.contracts.foldl (fun d c => ((digest_targets ((d.update_u64 c.id.value).update c.name)
    c.members).update_u32 c.min_available).update_bool c.require_fresh_evidence)
    (d.update_u64 p.contracts.length)
  let d := p.windows.foldl (fun d w => digest_targets (((((((d.update_u64 w.id.value).update
    w.name).update_i64 w.opens_at).update_i64 w.closes_at).update_i64 w.min_lead_time).update_i64
    w.abort_grace).update_u32 w.on_close.code) w.targets) (d.update_u64 p.windows.length)
  let d := p.tiers.foldl (fun d t => (d.update_u32 t.index).update t.name)
    (d.update_u64 p.tiers.length)
  let d := p.evidence_ttl.rows.foldl (fun d e => (d.update_u32 e.1.code).update_i64 e.2)
    (d.update_u64 p.evidence_ttl.size)
  let d := (((d.update_u32 p.min_evidence_sources).update_bool p.require_window).update_i64
    p.max_precondition_age).update_i64 p.default_duration
  let d := ((d.update_u32 p.max_concurrent_jobs).update_i64 p.authority_lease).update_i64
    p.drain_lease
  (((d.update_u32 p.max_drain_failures_before_block).update_u32
    p.max_verification_attempts).update_u32 p.max_restoration_attempts).value

end Policy

end MaintenanceFabric
