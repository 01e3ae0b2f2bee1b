import MaintenanceFabric.Domain.Job
import MaintenanceFabric.Engine.Readiness

/-! # Capacity impact

    What a planned removal would cost, on top of what is already out of
    service, measured against the redundancy, failure-domain, headroom and
    contract rules of the policy.
-/

namespace MaintenanceFabric

open Lib

structure TargetImpact where
  target : TargetId
  «exists» : Bool
  maintainable : Bool
  covered_by_baseline : Bool
  planned : Bool
  evidence_fresh : Bool
  health : Health
  detail : Text

structure PoolImpact where
  pool : PoolId
  name : Text
  total_units : Nat
  serving_units : Nat
  unknown_units : Nat
  removed_serving_units : Nat
  remaining_units : Nat
  required_units : Nat
  reserve_units : Nat
  satisfied : Bool
  rule : Text
  reason : Text

structure DomainImpact where
  domain : DomainId
  name : Text
  limited : Bool
  out_before : Nat
  out_after : Nat
  max_out : Nat
  satisfied : Bool
  rule : Text
  reason : Text

structure ContractImpact where
  contract : ContractId
  name : Text
  available_before : Nat
  available_after : Nat
  min_available : Nat
  satisfied : Bool
  reason : Text

structure CapacityImpact where
  targets : List TargetImpact
  pools : List PoolImpact
  domains : List DomainImpact
  contracts : List ContractImpact
  planned_count : Nat
  baseline_count : Nat
  satisfied : Bool
  digest : UInt64

structure ImpactInput where
  topology : Topology
  policy : Policy
  readiness : ReadinessView
  /-- Targets already out of service. -/
  baseline_removed : List TargetId
  /-- Targets this job would take out of service. -/
  planned_removed : List TargetId

/-! ## Entries -/

section Entries

variable (topology : Topology) (policy : Policy) (readiness : ReadinessView)
  (baseline planned : List TargetId)

def target_impact (target : TargetId) : TargetImpact :=
  let record := topology.target target
  { target
    «exists» := record.isSome
    maintainable := record.any TargetRecord.maintainable
    covered_by_baseline := decide (target ∈ baseline)
    planned := decide (target ∈ planned)
    evidence_fresh := readiness.is_fresh target
    health := readiness.health_of target
    detail :=
      if record.isNone then text "not declared in the topology"
      else if !readiness.is_fresh target then text "no fresh health evidence"
      else text "health=" ++ (readiness.health_of target).to_string }

/-- Capacity of a pool member; an undeclared one counts as a single unit. -/
def member_units (member : TargetId) : Nat :=
  match topology.target member with
  | none => 1
  | some record => record.capacity_units

/-- Sum of the units of the members that satisfy `p`. -/
def units_where (members : List TargetId) (p : TargetId → Bool) : Nat :=
  ((members.filter p).map (member_units topology)).sum

def is_out (member : TargetId) : Bool := decide (member ∈ baseline) || decide (member ∈ planned)

def pool_impact (pool : PoolRecord) : PoolImpact :=
  let rule := policy.redundancy_for pool.id
  let headroom := policy.headroom_for pool.id
  let required_units := rule.required_serving_units
  let reserve_units := (headroom.map HeadroomRule.reserve_units).getD 0
  let rule_name := if rule.name.isEmpty then text "redundancy" else rule.name
  let headroom_name := (headroom.map HeadroomRule.name).getD []
  let unknown := wrap32 (units_where topology pool.members (fun m => !readiness.is_fresh m))
  let serving := wrap32 (units_where topology pool.members
    (fun m => readiness.is_serving m && !is_out baseline planned m))
  let removed_serving := wrap32 (units_where topology pool.members
    (fun m => readiness.is_serving m && is_out baseline planned m))
  let required_total := wrap32 (required_units + reserve_units)
  let shortfall :=
    if serving < required_total then
      text "pool " ++ pool.id.to_string ++ text " would keep " ++ decimal serving ++
        text " serving unit(s); policy requires " ++ decimal required_total ++ text " (" ++
        decimal required_units ++ text " redundancy + " ++ decimal reserve_units ++
        text " reserve)"
    else []
  { pool := pool.id
    name := pool.name
    total_units := wrap32 (units_where topology pool.members (fun _ => true))
    serving_units := wrap32 (serving + removed_serving)
    unknown_units := unknown
    removed_serving_units := removed_serving
    remaining_units := serving
    required_units
    reserve_units
    satisfied := !decide (serving < required_total)
    rule := if headroom_name.isEmpty then rule_name else rule_name ++ text "+" ++ headroom_name
    reason :=
      if unknown > 0 then
        shortfall ++ (if shortfall.isEmpty then [] else text "; ") ++ decimal unknown ++
          text " unit(s) have no fresh health evidence and do not count toward the requirement"
      else shortfall }

def join_names (names : List Text) : Text := (text ",").intercalate names

/-- Several rules may limit one domain; the largest bound is the effective one. -/
def effective_max_out (rules : List DomainLimitRule) : Nat :=
  rules.foldl (fun max_out rule => max max_out rule.max_out) 0

def domain_impact (record : DomainRecord) : DomainImpact :=
  let rules := policy.domain_limits_for record.id
  let limited := !rules.isEmpty
  let max_out := effective_max_out rules
  let names := (rules.map DomainLimitRule.name).filter (fun n => !n.isEmpty)
  let members := topology.domain_members record.id
  let out_after := (members.filter (is_out baseline planned)).length
  let exceeded := limited && decide (out_after > max_out)
  { domain := record.id
    name := record.name
    limited
    out_before := (members.filter (fun m => decide (m ∈ baseline))).length
    out_after
    max_out
    satisfied := !exceeded
    rule := if names.isEmpty then text "domain-limit" else join_names names
    reason :=
      if exceeded then
        text "correlated failure domain " ++ record.id.to_string ++ text " would have " ++
          decimal out_after ++ text " member(s) out of service; policy allows " ++ decimal max_out
      else [] }

def contract_impact (contract : Contract) : ContractImpact :=
  let before := (contract.members.filter
    (fun m => readiness.is_serving m && !decide (m ∈ baseline))).length
  let after := (contract.members.filter
    (fun m => readiness.is_serving m && !is_out baseline planned m)).length
  { contract := contract.id
    name := contract.name
    available_before := before
    available_after := after
    min_available := contract.min_available
    satisfied := !decide (after < contract.min_available)
    reason :=
      if after < contract.min_available then
        text "contract " ++ contract.id.to_string ++ text " (" ++ contract.name ++
          text ") would keep " ++ decimal after ++ text " of " ++
          decimal contract.members.length ++ text " member(s) available; minimum is " ++
          decimal contract.min_available
      else [] }

end Entries

/-! ## The projection -/

def digest_impact (targets : List TargetImpact) (pools : List PoolImpact)
    (domains : List DomainImpact) (contracts : List ContractImpact)
    (planned_count baseline_count : Nat) (satisfied : Bool) : UInt64 :=
  let d := (((({} : Digest).update (text "mf.impact.v1")).update_u64 planned_count).update_u64
    baseline_count).update_bool satisfied
  let d := targets.foldl (fun d e => (((((((d.update_u32 e.target.kind.code).update_u32
    e.target.index).update_bool e.exists).update_bool e.maintainable).update_bool
    e.covered_by_baseline).update_bool e.planned).update_bool e.evidence_fresh).update_u32
    e.health.code) d
  let d := pools.foldl (fun d e => (((((((d.update_u64 e.pool.value).update_u32
    e.total_units).update_u32 e.serving_units).update_u32 e.unknown_units).update_u32
    e.remaining_units).update_u32 e.required_units).update_u32 e.reserve_units).update_bool
    e.satisfied) d
  let d := domains.foldl (fun d e => (((((d.update_u32 e.domain.kind.code).update_u32
    e.domain.index).update_u32 e.out_before).update_u32 e.out_after).update_u32
    e.max_out).update_bool e.satisfied) d
  (contracts.foldl (fun d e => ((((d.update_u64 e.contract.value).update_u32
    e.available_before).update_u32 e.available_after).update_u32 e.min_available).update_bool
    e.satisfied) d).value

def compute_impact (input : ImpactInput) : CapacityImpact :=
  let baseline := sorted_unique input.baseline_removed
  let planned := sorted_unique input.planned_removed
  let all := sort (push_all_unique baseline planned)
  let targets := all.map (target_impact input.topology input.readiness baseline planned)
  let pools := ((input.topology.pools_of all).filterMap input.topology.pool).map
    (pool_impact input.topology input.policy input.readiness baseline planned)
  let domains := ((input.topology.domains_of all).filterMap input.topology.domain).map
    (domain_impact input.topology input.policy baseline planned)
  let contracts := (input.policy.contracts_touching planned).map
    (contract_impact input.readiness baseline planned)
  let satisfied := targets.all (fun e => e.exists && (!e.planned || e.maintainable)) &&
    pools.all PoolImpact.satisfied && domains.all DomainImpact.satisfied &&
    contracts.all ContractImpact.satisfied
  { targets, pools, domains, contracts
    planned_count := planned.length
    baseline_count := baseline.length
    satisfied
    digest := digest_impact targets pools domains contracts planned.length baseline.length
      satisfied }

/-! ## What a satisfied projection promises

    Stated for any set `out` of targets that the projection has counted as
    out of service where the bound looks, so that a caller may use a set it
    knows by other means. -/

theorem units_where_mono {t : Topology} {p q : TargetId → Bool} {members : List TargetId}
    (h : ∀ m ∈ members, p m = true → q m = true) :
    units_where t members p ≤ units_where t members q := by
  unfold units_where
  induction members with
  | nil => simp
  | cons m members ih =>
    have ih := ih (fun x hx => h x (List.mem_cons_of_mem _ hx))
    by_cases hp : p m = true
    · simp only [List.filter_cons, hp, h m List.mem_cons_self hp, if_true,
        List.map_cons, List.sum_cons]
      omega
    · by_cases hq : q m = true
      · simp only [List.filter_cons, hp, hq, if_true, List.map_cons, List.sum_cons]
        simp only [Bool.false_eq_true, if_false]
        omega
      · simp only [List.filter_cons, hp, hq]
        exact ih

section Promises

variable {input : ImpactInput} {out : List TargetId}

/-- What is not counted as out is not in the set. -/
theorem serving_outside {m : TargetId}
    (counted : m ∈ out → m ∈ input.baseline_removed ∨ m ∈ input.planned_removed)
    (h : (input.readiness.is_serving m && !is_out (sorted_unique input.baseline_removed)
      (sorted_unique input.planned_removed) m) = true) :
    (input.readiness.is_serving m && !decide (m ∈ out)) = true := by
  simp only [is_out, mem_sorted_unique, Bool.and_eq_true, Bool.not_eq_true', Bool.or_eq_false_iff,
    decide_eq_false_iff_not] at h ⊢
  refine ⟨h.1, ?_⟩
  intro hm
  rcases counted hm with hb | hp
  · exact h.2.1 hb
  · exact h.2.2 hp

theorem pool_promise (satisfied : ∀ e ∈ (compute_impact input).pools, e.satisfied = true)
    {pool : PoolRecord} (hpool : pool ∈ input.topology.pools.rows) {m : TargetId}
    (hm : m ∈ pool.members) (hplanned : m ∈ input.planned_removed)
    (counted : ∀ t ∈ pool.members, t ∈ out → t ∈ input.baseline_removed ∨ t ∈ input.planned_removed)
    (nowrap : (input.policy.redundancy_for pool.id).min_viable +
      (input.policy.redundancy_for pool.id).tolerated_losses +
      ((input.policy.headroom_for pool.id).map HeadroomRule.reserve_units).getD 0 < 4294967296) :
    (input.policy.redundancy_for pool.id).min_viable +
      (input.policy.redundancy_for pool.id).tolerated_losses +
      ((input.policy.headroom_for pool.id).map HeadroomRule.reserve_units).getD 0 ≤
      units_where input.topology pool.members
        (fun m => input.readiness.is_serving m && !decide (m ∈ out)) := by
  have hentry := satisfied (pool_impact input.topology input.policy input.readiness
    (sorted_unique input.baseline_removed) (sorted_unique input.planned_removed) pool) (by
      simp only [compute_impact, List.mem_map, List.mem_filterMap, Topology.mem_pools_of, mem_sort,
        mem_push_all_unique, mem_sorted_unique]
      refine ⟨pool, ⟨pool.id, ⟨m, .inr hplanned, ?_⟩, Table.find_iff_mem.mpr hpool⟩, rfl⟩
      exact input.topology.pools_indexed pool hpool m hm)
  simp only [pool_impact, Bool.not_eq_true', decide_eq_false_iff_not, not_lt] at hentry
  have hmono := units_where_mono (t := input.topology)
    (fun m hm => serving_outside (m := m) (counted m hm))
  generalize ((input.policy.headroom_for pool.id).map HeadroomRule.reserve_units).getD 0 = reserve
    at hentry nowrap ⊢
  unfold RedundancyRule.required_serving_units wrap32 at hentry
  rw [Nat.mod_eq_of_lt (by omega : (input.policy.redundancy_for pool.id).min_viable +
    (input.policy.redundancy_for pool.id).tolerated_losses < 4294967296), Nat.mod_eq_of_lt nowrap]
    at hentry
  exact (hentry.trans (Nat.mod_le _ _)).trans hmono

theorem domain_promise (satisfied : ∀ e ∈ (compute_impact input).domains, e.satisfied = true)
    {t : TargetId} (hplanned : t ∈ input.planned_removed) {record : TargetRecord}
    (hrecord : input.topology.target t = some record) {d : DomainId} (hd : d ∈ record.domains)
    (limited : input.policy.domain_limits_for d ≠ [])
    (counted : ∀ r ∈ input.topology.targets.rows, d ∈ r.domains → r.id ∈ out →
      r.id ∈ input.baseline_removed ∨ r.id ∈ input.planned_removed) :
    (input.topology.targets.rows.filter
      (fun r => decide (d ∈ r.domains) && decide (r.id ∈ out))).length ≤
      effective_max_out (input.policy.domain_limits_for d) := by
  obtain ⟨hdeclared, _⟩ := input.topology.members_indexed record (Table.mem_of_find hrecord) d hd
  obtain ⟨domain, hdomain⟩ := Option.isSome_iff_exists.mp hdeclared
  have hid : domain.id = d := Table.key_of_find hdomain
  have hentry := satisfied (domain_impact input.topology input.policy
    (sorted_unique input.baseline_removed) (sorted_unique input.planned_removed) domain) (by
      simp only [compute_impact, List.mem_map, List.mem_filterMap,
        Topology.mem_domains_of, mem_sort,
        mem_push_all_unique, mem_sorted_unique]
      exact ⟨domain, ⟨d, ⟨t, .inr hplanned, record, hrecord, hd⟩, hdomain⟩, rfl⟩)
  simp only [domain_impact, hid, Bool.not_eq_true', Bool.and_eq_false_iff, Bool.not_eq_false',
    List.isEmpty_iff, decide_eq_false_iff_not, not_lt, gt_iff_lt] at hentry
  refine le_trans ?_ (hentry.resolve_left limited)
  -- The index lists every member the records name, so it counts at least as many.
  rw [← List.length_map (f := TargetRecord.id)]
  refine List.Subperm.length_le (List.subperm_of_subset ?_ ?_)
  · refine List.Nodup.map_on ?_ ?_
    · intro a ha b hb heq
      exact Table.eq_of_mem_of_key_eq (List.mem_of_mem_filter ha) (List.mem_of_mem_filter hb) heq
    · refine List.Nodup.filter _ ?_
      exact input.topology.targets.sorted.imp
        (fun h heq => absurd h (by rw [heq]; exact lt_irrefl _))
  · intro m hm
    simp only [List.mem_map, List.mem_filter, Bool.and_eq_true, decide_eq_true_eq] at hm
    obtain ⟨r, ⟨hr, hrd, hrout⟩, rfl⟩ := hm
    refine List.mem_filter.mpr ⟨(input.topology.members_indexed r hr d hrd).2, ?_⟩
    simp only [is_out, mem_sorted_unique, Bool.or_eq_true, decide_eq_true_eq]
    exact counted r hr hrd hrout

theorem contract_promise (satisfied : ∀ e ∈ (compute_impact input).contracts, e.satisfied = true)
    {contract : Contract} (hcontract : contract ∈ input.policy.contracts) {m : TargetId}
    (hm : m ∈ contract.members) (hplanned : m ∈ input.planned_removed)
    (counted : ∀ t ∈ contract.members, t ∈ out →
      t ∈ input.baseline_removed ∨ t ∈ input.planned_removed) :
    contract.min_available ≤ (contract.members.filter
      (fun m => input.readiness.is_serving m && !decide (m ∈ out))).length := by
  have hentry := satisfied (contract_impact input.readiness (sorted_unique input.baseline_removed)
    (sorted_unique input.planned_removed) contract) (by
      simp only [compute_impact, List.mem_map, Policy.contracts_touching,
        mem_sort_by, List.mem_filter,
        List.any_eq_true, decide_eq_true_eq, mem_sorted_unique]
      exact ⟨contract, ⟨hcontract, m, hm, hplanned⟩, rfl⟩)
  simp only [contract_impact, Bool.not_eq_true', decide_eq_false_iff_not, not_lt] at hentry
  refine hentry.trans ?_
  rw [← List.countP_eq_length_filter, ← List.countP_eq_length_filter]
  exact List.countP_mono_left (fun m hm => serving_outside (counted m hm))

end Promises

namespace CapacityImpact

def block_reason (i : CapacityImpact) : Option BlockReason :=
  if i.targets.any (fun e => !e.exists) then some .TargetUnknown
  else if i.targets.any (fun e => e.planned && !e.maintainable) then some .TargetNotMaintainable
  else if i.pools.any (fun e => !e.satisfied) then some .RedundancyViolation
  else if i.domains.any (fun e => !e.satisfied) then some .FailureDomainLimit
  else if i.contracts.any (fun e => !e.satisfied) then some .ContractViolation
  else none

/-- The first thing wrong with one target, if anything is. -/
def target_violation (e : TargetImpact) : Option Text :=
  if !e.exists then
    some (text "target " ++ e.target.to_string ++ text " is not declared in the topology")
  else if e.planned && !e.maintainable then
    some (text "target " ++ e.target.to_string ++ text " is marked not maintainable")
  else none

def first_violation (i : CapacityImpact) : Text :=
  let reasons := (i.pools.filter (fun e => !e.satisfied)).map PoolImpact.reason ++
    (i.domains.filter (fun e => !e.satisfied)).map DomainImpact.reason ++
    (i.contracts.filter (fun e => !e.satisfied)).map ContractImpact.reason ++
    i.targets.filterMap target_violation
  reasons.headD []

def summary (i : CapacityImpact) : Text :=
  text "planned=" ++ decimal i.planned_count ++ text " baseline=" ++ decimal i.baseline_count ++
    text " pools=" ++ decimal i.pools.length ++ text " domains=" ++ decimal i.domains.length ++
    text " contracts=" ++ decimal i.contracts.length ++
    (if i.satisfied then text " satisfied" else text " UNSATISFIED")

end CapacityImpact

end MaintenanceFabric
