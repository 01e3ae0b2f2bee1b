import MaintenanceFabric.Engine.Impact

/-! # What the projection looks at

    `compute_impact` sorts its two sets first and then walks the pools, the
    domains and the contracts they touch.  Here its verdict is stated over the
    sets themselves: which entries there are, and when each is satisfied.
-/

namespace MaintenanceFabric

open Lib

/-- The units a pool must keep, in the width the projection adds them. -/
def Policy.required_total (p : Policy) (pool : PoolId) : Nat :=
  wrap32 ((p.redundancy_for pool).required_serving_units +
    ((p.headroom_for pool).map HeadroomRule.reserve_units).getD 0)

/-- The same as the rules state it. -/
def Policy.stated_requirement (p : Policy) (pool : PoolId) : Nat :=
  (p.redundancy_for pool).min_viable + (p.redundancy_for pool).tolerated_losses +
    ((p.headroom_for pool).map HeadroomRule.reserve_units).getD 0

theorem Policy.required_total_eq (p : Policy) (pool : PoolId) :
    p.required_total pool = wrap32 (p.stated_requirement pool) := by
  unfold required_total stated_requirement RedundancyRule.required_serving_units wrap32
  exact Nat.mod_add_mod _ _ _

namespace ImpactInput

variable (i : ImpactInput)

/-- In one of the two sets. -/
def is_removed (t : TargetId) : Bool :=
  decide (t ∈ i.baseline_removed) || decide (t ∈ i.planned_removed)

/-- Both sets as one, ascending. -/
def removed : List TargetId :=
  sort (push_all_unique (sorted_unique i.baseline_removed) (sorted_unique i.planned_removed))

@[simp] theorem mem_removed {t : TargetId} : t ∈ i.removed ↔ i.is_removed t = true := by
  simp [removed, is_removed]

theorem is_out_eq (m : TargetId) :
    is_out (sorted_unique i.baseline_removed) (sorted_unique i.planned_removed) m =
      i.is_removed m := by
  simp [is_out, is_removed]

def target_entry (t : TargetId) : TargetImpact :=
  target_impact i.topology i.readiness (sorted_unique i.baseline_removed)
    (sorted_unique i.planned_removed) t

def pool_entry (pool : PoolRecord) : PoolImpact :=
  pool_impact i.topology i.policy i.readiness (sorted_unique i.baseline_removed)
    (sorted_unique i.planned_removed) pool

def domain_entry (record : DomainRecord) : DomainImpact :=
  domain_impact i.topology i.policy (sorted_unique i.baseline_removed)
    (sorted_unique i.planned_removed) record

def contract_entry (contract : Contract) : ContractImpact :=
  contract_impact i.readiness (sorted_unique i.baseline_removed) (sorted_unique i.planned_removed)
    contract

/-! ## The counts -/

/-- Units of the pool's members that are fresh, serving and in neither set. -/
def surviving_units (pool : PoolRecord) : Nat :=
  units_where i.topology pool.members (fun m => i.readiness.is_serving m && !i.is_removed m)

/-- Members of the domain in one of the sets. -/
def members_out (d : DomainId) : Nat := ((i.topology.domain_members d).filter i.is_removed).length

/-- Members of the contract that are fresh, serving and in neither set. -/
def available (contract : Contract) : Nat :=
  (contract.members.filter (fun m => i.readiness.is_serving m && !i.is_removed m)).length

theorem target_entry_ok {t : TargetId} :
    ((i.target_entry t).exists &&
      (!(i.target_entry t).planned || (i.target_entry t).maintainable)) =
        true ↔
      (i.topology.target t).isSome = true ∧
        (t ∈ i.planned_removed → (i.topology.target t).any TargetRecord.maintainable = true) := by
  simp only [target_entry, target_impact, mem_sorted_unique, Bool.and_eq_true, Bool.or_eq_true,
    Bool.not_eq_true', decide_eq_false_iff_not, ← imp_iff_not_or]

theorem pool_entry_remaining {pool : PoolRecord} :
    (i.pool_entry pool).remaining_units = wrap32 (i.surviving_units pool) := by
  simp only [pool_entry, pool_impact, is_out_eq, surviving_units]

theorem pool_entry_ok {pool : PoolRecord} :
    (i.pool_entry pool).satisfied = true ↔
      i.policy.required_total pool.id ≤ wrap32 (i.surviving_units pool) := by
  simp only [pool_entry, pool_impact, is_out_eq, surviving_units, Policy.required_total,
    Bool.not_eq_true', decide_eq_false_iff_not, not_lt]

theorem domain_entry_ok {record : DomainRecord} :
    (i.domain_entry record).satisfied = true ↔
      (i.policy.domain_limits_for record.id ≠ [] →
        i.members_out record.id ≤ effective_max_out (i.policy.domain_limits_for record.id)) := by
  have hout : is_out (sorted_unique i.baseline_removed) (sorted_unique i.planned_removed) =
      i.is_removed := funext i.is_out_eq
  simp only [domain_entry, domain_impact, hout, members_out, Bool.not_eq_true',
    Bool.and_eq_false_iff,
    Bool.not_eq_false', List.isEmpty_iff, decide_eq_false_iff_not, not_lt, gt_iff_lt]
  rw [← or_iff_not_imp_left]

theorem contract_entry_ok {contract : Contract} :
    (i.contract_entry contract).satisfied = true ↔
      contract.min_available ≤ i.available contract := by
  simp only [contract_entry, contract_impact, is_out_eq, available, Bool.not_eq_true',
    decide_eq_false_iff_not, not_lt]

/-! ## The entries -/

variable {i}

theorem mem_target_entries {e : TargetImpact} :
    e ∈ (compute_impact i).targets ↔ ∃ t, i.is_removed t = true ∧ i.target_entry t = e := by
  change e ∈ i.removed.map i.target_entry ↔ _
  simp

theorem mem_pool_entries {e : PoolImpact} :
    e ∈ (compute_impact i).pools ↔ ∃ pool, (∃ t, i.is_removed t = true ∧
      pool.id ∈ i.topology.target_pools t) ∧ i.topology.pool pool.id = some pool ∧
      i.pool_entry pool = e := by
  change e ∈ ((i.topology.pools_of i.removed).filterMap i.topology.pool).map i.pool_entry ↔ _
  simp only [List.mem_map, List.mem_filterMap, Topology.mem_pools_of, mem_removed]
  constructor
  · rintro ⟨pool, ⟨p, htouched, hpool⟩, rfl⟩
    obtain rfl : pool.id = p := Table.key_of_find hpool
    exact ⟨pool, htouched, hpool, rfl⟩
  · rintro ⟨pool, htouched, hpool, rfl⟩
    exact ⟨pool, ⟨pool.id, htouched, hpool⟩, rfl⟩

theorem mem_domain_entries {e : DomainImpact} :
    e ∈ (compute_impact i).domains ↔ ∃ d, (∃ t, i.is_removed t = true ∧
      ∃ r, i.topology.target t = some r ∧ d.id ∈ r.domains) ∧ i.topology.domain d.id = some d ∧
      i.domain_entry d = e := by
  change e ∈ ((i.topology.domains_of i.removed).filterMap i.topology.domain).map i.domain_entry ↔ _
  simp only [List.mem_map, List.mem_filterMap, Topology.mem_domains_of, mem_removed]
  constructor
  · rintro ⟨d, ⟨id, htouched, hd⟩, rfl⟩
    obtain rfl : d.id = id := Table.key_of_find hd
    exact ⟨d, htouched, hd, rfl⟩
  · rintro ⟨d, htouched, hd, rfl⟩
    exact ⟨d, ⟨d.id, htouched, hd⟩, rfl⟩

theorem mem_contract_entries {e : ContractImpact} :
    e ∈ (compute_impact i).contracts ↔ ∃ c ∈ i.policy.contracts,
      (∃ m ∈ c.members, m ∈ i.planned_removed) ∧ i.contract_entry c = e := by
  change e ∈ (i.policy.contracts_touching (sorted_unique i.planned_removed)).map
    i.contract_entry ↔ _
  simp only [List.mem_map, Policy.contracts_touching, mem_sort_by,
    List.mem_filter, List.any_eq_true,
    decide_eq_true_eq, mem_sorted_unique, and_assoc]

/-- What must hold for the projection to be satisfied, over the two sets. -/
structure Bounds (i : ImpactInput) : Prop where
  targets : ∀ t, i.is_removed t = true → (i.topology.target t).isSome = true ∧
    (t ∈ i.planned_removed → (i.topology.target t).any TargetRecord.maintainable = true)
  pools : ∀ t, i.is_removed t = true → ∀ pool, pool.id ∈ i.topology.target_pools t →
    i.topology.pool pool.id = some pool →
    i.policy.required_total pool.id ≤ wrap32 (i.surviving_units pool)
  domains : ∀ t, i.is_removed t = true → ∀ r, i.topology.target t = some r → ∀ d ∈ r.domains,
    i.policy.domain_limits_for d ≠ [] →
    i.members_out d ≤ effective_max_out (i.policy.domain_limits_for d)
  contracts : ∀ c ∈ i.policy.contracts, (∃ m ∈ c.members, m ∈ i.planned_removed) →
    c.min_available ≤ i.available c

theorem satisfied_iff : (compute_impact i).satisfied = true ↔ i.Bounds := by
  have hverdict : (compute_impact i).satisfied = true ↔
      (∀ e ∈ (compute_impact i).targets, (e.exists && (!e.planned || e.maintainable)) = true) ∧
      (∀ e ∈ (compute_impact i).pools, e.satisfied = true) ∧
      (∀ e ∈ (compute_impact i).domains, e.satisfied = true) ∧
      (∀ e ∈ (compute_impact i).contracts, e.satisfied = true) := by
    change ((compute_impact i).targets.all _ && (compute_impact i).pools.all _ &&
      (compute_impact i).domains.all _ && (compute_impact i).contracts.all _) = true ↔ _
    simp only [Bool.and_eq_true, List.all_eq_true, and_assoc]
  -- The four verdicts stand for the four bounds, entry by entry.
  rw [hverdict]
  constructor
  · rintro ⟨htargets, hpools, hdomains, hcontracts⟩
    constructor
    · intro t ht
      exact i.target_entry_ok.mp (htargets _ (mem_target_entries.mpr ⟨t, ht, rfl⟩))
    · intro t ht pool hindexed hpool
      exact i.pool_entry_ok.mp
        (hpools _ (mem_pool_entries.mpr ⟨pool, ⟨t, ht, hindexed⟩, hpool, rfl⟩))
    · intro t ht r hr d hd
      obtain ⟨hdeclared, _⟩ := i.topology.members_indexed r (Table.mem_of_find hr) d hd
      obtain ⟨record, hrecord⟩ := Option.isSome_iff_exists.mp hdeclared
      obtain rfl : record.id = d := Table.key_of_find hrecord
      exact i.domain_entry_ok.mp
        (hdomains _ (mem_domain_entries.mpr ⟨record, ⟨t, ht, r, hr, hd⟩, hrecord, rfl⟩))
    · intro c hc htouched
      exact i.contract_entry_ok.mp (hcontracts _ (mem_contract_entries.mpr ⟨c, hc, htouched, rfl⟩))
  · intro h
    refine ⟨?_, ?_, ?_, ?_⟩
    · intro e he
      obtain ⟨t, ht, rfl⟩ := mem_target_entries.mp he
      exact i.target_entry_ok.mpr (h.targets t ht)
    · intro e he
      obtain ⟨pool, ⟨t, ht, hindexed⟩, hpool, rfl⟩ := mem_pool_entries.mp he
      exact i.pool_entry_ok.mpr (h.pools t ht pool hindexed hpool)
    · intro e he
      obtain ⟨d, ⟨t, ht, r, hr, hd⟩, _, rfl⟩ := mem_domain_entries.mp he
      exact i.domain_entry_ok.mpr (h.domains t ht r hr d.id hd)
    · intro e he
      obtain ⟨c, hc, htouched, rfl⟩ := mem_contract_entries.mp he
      exact i.contract_entry_ok.mpr (h.contracts c hc htouched)

end ImpactInput

end MaintenanceFabric
