import MaintenanceFabric.Guarantees.Projection

/-! # Which rules the projection enforces

    A policy may give several rules for one pool or one domain.  Of the
    redundancy and headroom rules of a pool the first counts, of the limits of
    a domain the loosest; so every rule is enforced when the bound that counts
    implies the others, and only then.
-/

namespace MaintenanceFabric

open Lib

namespace ImpactInput

/-! ## The rules -/

/-- After the removal every rule that the planned set touches holds, as it is stated. -/
structure RulesHold (i : ImpactInput) : Prop where
  redundancy : ∀ rule ∈ i.policy.redundancy, ∀ pool, i.topology.pool rule.pool = some pool →
    (∃ m ∈ pool.members, m ∈ i.planned_removed) →
    rule.min_viable + rule.tolerated_losses ≤ i.surviving_units pool
  headroom : ∀ rule ∈ i.policy.headroom, ∀ pool, i.topology.pool rule.pool = some pool →
    (∃ m ∈ pool.members, m ∈ i.planned_removed) →
    (i.policy.redundancy_for rule.pool).min_viable +
      (i.policy.redundancy_for rule.pool).tolerated_losses + rule.reserve_units ≤
      i.surviving_units pool
  domain_limits : ∀ rule ∈ i.policy.domain_limits,
    (∃ r ∈ i.topology.targets.rows, r.id ∈ i.planned_removed ∧ rule.domain ∈ r.domains) →
    (i.topology.targets.rows.filter
      (fun r => decide (rule.domain ∈ r.domains) && i.is_removed r.id)).length ≤ rule.max_out
  contracts : ∀ c ∈ i.policy.contracts, (∃ m ∈ c.members, m ∈ i.planned_removed) →
    c.min_available ≤ (c.members.filter
      (fun m => i.readiness.is_serving m && !i.is_removed m)).length

end ImpactInput

/-- The bound enforced for each pool and domain implies every rule given for it: the first rules
    of a pool fit in 32 bits together and ask for as much as the later ones, and no rule of a
    domain is looser than another that a topology is large enough to break. -/
structure Policy.Decisive (p : Policy) : Prop where
  redundancy : ∀ rule ∈ p.redundancy, p.stated_requirement rule.pool < 4294967296 ∧
    rule.min_viable + rule.tolerated_losses ≤ p.stated_requirement rule.pool
  headroom : ∀ rule ∈ p.headroom, p.stated_requirement rule.pool < 4294967296 ∧
    (p.redundancy_for rule.pool).min_viable + (p.redundancy_for rule.pool).tolerated_losses +
      rule.reserve_units ≤ p.stated_requirement rule.pool
  domain_limits : ∀ rule ∈ p.domain_limits, rule.max_out < limits.kMaxTargetsPerTopology →
    ∀ other ∈ p.domain_limits, other.domain = rule.domain → other.max_out ≤ rule.max_out

namespace ImpactInput

variable {i : ImpactInput}

theorem effective_max_out_le {bound : Nat} {rules : List DomainLimitRule}
    (h : ∀ rule ∈ rules, rule.max_out ≤ bound) : effective_max_out rules ≤ bound := by
  have hfold : ∀ (l : List DomainLimitRule) (start : Nat), start ≤ bound →
      (∀ rule ∈ l, rule.max_out ≤ bound) →
      l.foldl (fun max_out rule => max max_out rule.max_out) start ≤ bound := by
    intro l
    induction l with
    | nil => exact fun start hstart _ => hstart
    | cons rule l ih =>
      intro start hstart hl
      refine ih _ (max_le hstart (hl rule List.mem_cons_self)) ?_
      exact fun other hother => hl other (List.mem_cons_of_mem _ hother)
  exact hfold rules 0 (Nat.zero_le _) h

theorem le_effective_max_out {rules : List DomainLimitRule} {rule : DomainLimitRule}
    (h : rule ∈ rules) : rule.max_out ≤ effective_max_out rules := by
  have hstart : ∀ (l : List DomainLimitRule) (start : Nat),
      start ≤ l.foldl (fun max_out rule => max max_out rule.max_out) start := by
    intro l
    induction l with
    | nil => exact fun start => le_refl _
    | cons rule l ih => exact fun start => (le_max_left _ _).trans (ih _)
  have hfold : ∀ (l : List DomainLimitRule) (start : Nat), rule ∈ l →
      rule.max_out ≤ l.foldl (fun max_out rule => max max_out rule.max_out) start := by
    intro l
    induction l with
    | nil => intro start h; cases h
    | cons other l ih =>
      intro start h
      rcases List.mem_cons.mp h with rfl | h
      · exact (le_max_right _ _).trans (hstart _ _)
      · exact ih _ h
  exact hfold rules 0 h

/-- A pool whose requirement fits keeps it. -/
theorem Bounds.pool_kept (h : i.Bounds) {pool : PoolRecord} {id : PoolId}
    (hpool : i.topology.pool id = some pool) (htouched : ∃ m ∈ pool.members, m ∈ i.planned_removed)
    (hfits : i.policy.stated_requirement id < 4294967296) :
    i.policy.stated_requirement id ≤ i.surviving_units pool := by
  obtain rfl : pool.id = id := Table.key_of_find hpool
  obtain ⟨m, hm, hplanned⟩ := htouched
  have hbound := h.pools m (by simp [is_removed, hplanned]) pool
    (i.topology.pools_indexed pool (Table.mem_of_find hpool) m hm) hpool
  rw [Policy.required_total_eq, wrap32, Nat.mod_eq_of_lt hfits] at hbound
  exact hbound.trans (Nat.mod_le _ _)

/-- The members the records name are among those the index lists. -/
theorem members_out_ge (i : ImpactInput) (d : DomainId) :
    (i.topology.targets.rows.filter
      (fun r => decide (d ∈ r.domains) && i.is_removed r.id)).length ≤ i.members_out d := by
  rw [← List.length_map (f := TargetRecord.id)]
  refine List.Subperm.length_le (List.subperm_of_subset ?_ ?_)
  · exact i.topology.targets.nodup_keys.sublist (List.filter_sublist.map _)
  · intro m hm
    simp only [List.mem_map, List.mem_filter, Bool.and_eq_true, decide_eq_true_eq] at hm
    obtain ⟨r, ⟨hr, hd, hout⟩, rfl⟩ := hm
    exact List.mem_filter.mpr ⟨(i.topology.members_indexed r hr d hd).2, hout⟩

theorem Bounds.rules_hold (h : i.Bounds) (hp : i.policy.Decisive)
    (hsize : i.topology.targets.size ≤ limits.kMaxTargetsPerTopology) : i.RulesHold := by
  constructor
  · intro rule hrule pool hpool htouched
    obtain ⟨hfits, hle⟩ := hp.redundancy rule hrule
    exact hle.trans (h.pool_kept hpool htouched hfits)
  · intro rule hrule pool hpool htouched
    obtain ⟨hfits, hle⟩ := hp.headroom rule hrule
    exact hle.trans (h.pool_kept hpool htouched hfits)
  · intro rule hrule htouched
    by_cases hsmall : rule.max_out < limits.kMaxTargetsPerTopology
    · obtain ⟨r, hr, hplanned, hd⟩ := htouched
      have hmem : rule ∈ i.policy.domain_limits_for rule.domain :=
        List.mem_filter.mpr ⟨hrule, by simp⟩
      have hbound := h.domains r.id (by simp [is_removed, hplanned]) r (Table.find_iff_mem.mpr hr)
        rule.domain hd (List.ne_nil_of_mem hmem)
      have heffective : effective_max_out (i.policy.domain_limits_for rule.domain) ≤
        rule.max_out := by
        apply effective_max_out_le
        intro other hother
        obtain ⟨hother, hsame⟩ := List.mem_filter.mp hother
        exact hp.domain_limits rule hrule hsmall other hother (by simpa using hsame)
      exact ((i.members_out_ge rule.domain).trans hbound).trans heffective
    · -- No topology has more targets than this bound.
      have hfew := List.length_filter_le
        (fun r : TargetRecord => decide (rule.domain ∈ r.domains) && i.is_removed r.id)
        i.topology.targets.rows
      unfold Table.size at hsize
      omega
  · intro c hc htouched
    exact h.contracts c hc htouched

end ImpactInput

/-! ## Topologies that tell

    Where the enforced bound does not imply a rule, a row of links shows it:
    one pool with exactly the units that are enforced, or one domain with one
    member more than the rule allows. -/

namespace Probe

def link (n : Nat) : TargetId := { kind := .Link, index := n }

theorem link_lt {a b : Nat} (h : a < b) : link a < link b :=
  Prod.Lex.toLex_lt_toLex.mpr (.inr ⟨rfl, h⟩)

def record (n units : Nat) (domains : List DomainId) : TargetRecord :=
  { id := link n, domains, capacity_units := units }

/-- `n` links in a row. -/
def links (first n units : Nat) (domains : List DomainId) :
    Table (TargetRecord.id) :=
  ⟨(List.range n).map (fun k => record (first + k) units domains), by
    rw [List.pairwise_map]
    exact List.pairwise_lt_range.imp (fun h => link_lt (Nat.add_lt_add_left h first))⟩

theorem mem_links {first n units : Nat} {domains : List DomainId} {r : TargetRecord} :
    r ∈ (links first n units domains).rows ↔ ∃ k < n, record (first + k) units domains = r := by
  simp [links]

theorem find_link {first n units k : Nat} {domains : List DomainId} (hk : k < n) :
    (links first n units domains).find (link (first + k)) =
      some (record (first + k) units domains) :=
  Table.find_eq_some_iff.mpr ⟨mem_links.mpr ⟨k, hk, rfl⟩, rfl⟩

/-- Indices past every member of every contract. -/
theorem exists_unbound (p : Policy) :
    ∃ first, ∀ c ∈ p.contracts, ∀ m ∈ c.members, m.index < first := by
  have habove : ∀ l : List TargetId, ∃ first, ∀ m ∈ l, m.index < first := by
    intro l
    induction l with
    | nil => exact ⟨0, by simp⟩
    | cons m l ih =>
      obtain ⟨first, hfirst⟩ := ih
      refine ⟨max first (m.index + 1), ?_⟩
      intro x hx
      rcases List.mem_cons.mp hx with rfl | hx
      · omega
      · have := hfirst x hx
        omega
  obtain ⟨first, hfirst⟩ := habove (p.contracts.flatMap Contract.members)
  exact ⟨first, fun c hc m hm => hfirst m (List.mem_flatMap.mpr ⟨c, hc, hm⟩)⟩

/-- A topology without containment validates when its records do. -/
theorem validates {t : Topology} (hsize : t.targets.size ≤ limits.kMaxTargetsPerTopology)
    (hdomains : t.domains.size ≤ limits.kMaxDomainsPerTopology)
    (hpools : t.pools.size ≤ limits.kMaxPoolsPerTopology)
    (htargets : ∀ r ∈ t.targets.rows, validate_target_record r = .ok () ∧ r.parent = none ∧
      ∀ d ∈ r.domains, (t.domain d).isSome = true)
    (hmembers : ∀ p ∈ t.pools.rows, p.members ≠ [] ∧ ∀ m ∈ p.members, t.contains m = true) :
    t.validate = .ok () := by
  have hstored : ∀ r ∈ t.targets.rows, t.check_stored_target r = .ok () := by
    intro r hr
    obtain ⟨hrecord, hroot, hdeclared⟩ := htargets r hr
    simp only [Topology.check_stored_target, Result.bind_eq_ok,
      refuse_if_eq_ok, check_all_iff, hroot]
    refine ⟨(), hrecord, (), trivial, (), ?_, ?_⟩
    · intro d hd
      rw [Option.isNone_eq_false_iff]
      exact hdeclared d hd
    · rw [Topology.check_chain, hroot]
      rfl
  have hheld : ∀ p ∈ t.pools.rows, t.check_stored_pool p = .ok () := by
    intro p hp
    obtain ⟨hsome, hcontained⟩ := hmembers p hp
    simp only [Topology.check_stored_pool, Result.bind_eq_ok, refuse_if_eq_ok, check_all_iff]
    refine ⟨(), by simpa using hsome, ?_⟩
    intro m hm
    simp [hcontained m hm]
  simp only [Topology.validate, Result.bind_eq_ok, refuse_if_eq_ok, check_all_iff]
  exact ⟨(), by simpa using hsize, (), by simpa using hdomains, (), by simpa using hpools, (),
    hstored, hheld⟩

theorem record_valid {n units : Nat} {domains : List DomainId} (hunits : 0 < units)
    (hdomains : domains.length ≤ 1) : validate_target_record (record n units domains) = .ok () := by
  have hnodup : domains.Nodup := by
    match domains, hdomains with
    | [], _ => exact List.nodup_nil
    | [d], _ => exact List.nodup_singleton d
  have hfew : ¬ domains.length > limits.kMaxDomainsPerTarget := by
    unfold limits.kMaxDomainsPerTarget
    omega
  simp only [validate_target_record, Result.bind_eq_ok, refuse_if_eq_ok, record, link]
  exact ⟨(), rfl, (), rfl, (), decide_eq_false hfew, (), decide_eq_false hunits.ne', by
    simp [repeats, hnodup]⟩

/-- Two links in one pool; the first is to go and the second serves `units` units. -/
def pool_input (p : Policy) (id : PoolId) (first units : Nat) : ImpactInput :=
  { topology :=
      { targets := links first 2 (max 1 units) []
        pools := ⟨[{ id, members := [link first, link (first + 1)] }], by simp⟩
        target_pools := fun m => if m ∈ [link first, link (first + 1)] then [id] else []
        members_indexed := by
          intro r hr d hd
          obtain ⟨k, _, rfl⟩ := mem_links.mp hr
          cases hd
        pools_indexed := by
          intro pool hpool m hm
          obtain rfl := List.mem_singleton.mp hpool
          rw [if_pos hm]
          exact List.mem_singleton_self _ }
    policy := p
    readiness :=
      { entries := ⟨if units = 0 then [] else
          [{ target := link (first + 1), health := .Healthy, fresh := true }], by split <;> simp⟩ }
    baseline_removed := []
    planned_removed := [link first] }

/-- `n` links in one domain, all of them to go. -/
def domain_input (p : Policy) (d : DomainId) (first n : Nat) : ImpactInput :=
  { topology :=
      { targets := links first n 1 [d]
        domains := ⟨[{ id := d }], by simp⟩
        domain_members := fun x =>
          if x = d then (List.range n).map (fun k => link (first + k)) else []
        members_indexed := by
          intro r hr x hx
          obtain ⟨k, hk, rfl⟩ := mem_links.mp hr
          obtain rfl := List.mem_singleton.mp hx
          refine ⟨by simp [Table.find], ?_⟩
          rw [if_pos rfl]
          exact List.mem_map.mpr ⟨k, List.mem_range.mpr hk, rfl⟩
        pools_indexed := by intro pool hpool; cases hpool }
    policy := p
    readiness := {}
    baseline_removed := []
    planned_removed := (List.range n).map (fun k => link (first + k)) }

section Pools

variable {p : Policy} {id : PoolId} {first units : Nat}

theorem pool_input_validates : (pool_input p id first units).topology.validate = .ok () := by
  apply validates
  · simp [pool_input, links, Table.size, limits.kMaxTargetsPerTopology]
  · exact Nat.zero_le _
  · simp [pool_input, Table.size, limits.kMaxPoolsPerTopology]
  · intro r hr
    obtain ⟨k, _, rfl⟩ := mem_links.mp hr
    refine ⟨record_valid (by omega) (Nat.zero_le _), rfl, ?_⟩
    intro d hd
    cases hd
  · intro pool hpool
    obtain rfl := List.mem_singleton.mp hpool
    refine ⟨List.cons_ne_nil _ _, ?_⟩
    intro m hm
    have hfound : ∀ k < 2, (pool_input p id first units).topology.contains (link (first + k)) =
      true := by
      intro k hk
      unfold Topology.contains Topology.target
      exact (find_link hk).symm ▸ rfl
    simp only [List.mem_cons, List.not_mem_nil, or_false] at hm
    rcases hm with rfl | rfl
    · exact hfound 0 (by omega)
    · exact hfound 1 (by omega)

theorem pool_input_pool : (pool_input p id first units).topology.pool id =
    some { id, members := [link first, link (first + 1)] } :=
  Table.find_eq_some_iff.mpr ⟨List.mem_singleton_self _, rfl⟩

/-- Only the second link survives, with as many units as it was given. -/
theorem pool_input_surviving : (pool_input p id first units).surviving_units
    { id, members := [link first, link (first + 1)] } = units := by
  have hne : link (first + 1) ≠ link first := (link_lt (Nat.lt_succ_self first)).ne'
  have hgone : (pool_input p id first units).is_removed (link first) = true := by
    simp [ImpactInput.is_removed, pool_input]
  have hkept : (pool_input p id first units).is_removed (link (first + 1)) = false := by
    simp [ImpactInput.is_removed, pool_input, hne]
  have hunits : member_units (pool_input p id first units).topology (link (first + 1)) =
      max 1 units := by
    unfold member_units Topology.target
    have hfound : (links first 2 (max 1 units) []).find (link (first + 1)) =
        some (record (first + 1) (max 1 units) []) := find_link (by omega)
    exact hfound.symm ▸ rfl
  unfold ImpactInput.surviving_units units_where
  by_cases hzero : units = 0
  · have hunseen : (pool_input p id first units).readiness.is_serving (link (first + 1)) =
      false := by
      simp [pool_input, hzero, ReadinessView.is_serving, ReadinessView.is_fresh, ReadinessView.get,
        Table.find]
    simp only [List.filter_cons, hgone, hunseen, Bool.not_true, Bool.and_false, Bool.false_and,
      Bool.false_eq_true, if_false, List.filter_nil, List.map_nil, List.sum_nil]
    exact hzero.symm
  · have hseen : (pool_input p id first units).readiness.is_serving (link (first + 1)) = true := by
      simp [pool_input, hzero, ReadinessView.is_serving, ReadinessView.is_fresh,
        ReadinessView.health_of,
        ReadinessView.get, Table.find, Health.is_serving]
    simp only [List.filter_cons, hgone, hkept, hseen, Bool.not_true, Bool.and_false, Bool.not_false,
      Bool.and_true, List.filter_nil, hunits, if_true, List.map_cons, List.map_nil, List.sum_cons,
      List.sum_nil, Bool.false_eq_true, if_false]
    omega

/-- The projection is satisfied when the second link serves just what is enforced. -/
theorem pool_input_bounds (hfirst : ∀ c ∈ p.contracts, ∀ m ∈ c.members, m.index < first)
    (hunits : units = p.required_total id) : (pool_input p id first units).Bounds := by
  have hsmall : units < 4294967296 := by
    rw [hunits]
    exact Nat.mod_lt _ (by decide)
  have hgone : ∀ t, (pool_input p id first units).is_removed t = true → t = link first := by
    intro t ht
    simpa [ImpactInput.is_removed, pool_input] using ht
  have hfound : (pool_input p id first units).topology.target (link first) =
      some (record first (max 1 units) []) := find_link (k := 0) (by omega)
  constructor
  · intro t ht
    obtain rfl := hgone t ht
    rw [hfound]
    exact ⟨rfl, fun _ => rfl⟩
  · intro t ht pool hindexed hpool
    obtain rfl := List.mem_singleton.mp (Table.mem_of_find hpool)
    rw [pool_input_surviving, wrap32, Nat.mod_eq_of_lt hsmall]
    exact hunits.ge
  · intro t ht r hr d hd
    obtain rfl := hgone t ht
    obtain rfl := Option.some.inj (hfound.symm.trans hr)
    cases hd
  · rintro c hc ⟨m, hm, hplanned⟩
    obtain rfl : m = link first := List.mem_singleton.mp hplanned
    exact absurd (hfirst c hc _ hm) (lt_irrefl _)

end Pools

section Domains

variable {p : Policy} {d : DomainId} {first n : Nat}

theorem mem_domain_input {t : TargetId} :
    (domain_input p d first n).is_removed t = true ↔ ∃ k < n, link (first + k) = t := by
  simp [ImpactInput.is_removed, domain_input]

theorem domain_input_validates (hn : n ≤ limits.kMaxTargetsPerTopology) :
    (domain_input p d first n).topology.validate = .ok () := by
  apply validates
  · simpa [domain_input, links, Table.size] using hn
  · simp [domain_input, Table.size, limits.kMaxDomainsPerTopology]
  · exact Nat.zero_le _
  · intro r hr
    obtain ⟨k, _, rfl⟩ := mem_links.mp hr
    refine ⟨record_valid Nat.one_pos (le_refl _), rfl, ?_⟩
    intro x hx
    obtain rfl := List.mem_singleton.mp hx
    simp [domain_input, Topology.domain, Table.find]
  · intro pool hpool
    cases hpool

/-- All the links are out. -/
theorem domain_input_out : ((domain_input p d first n).topology.targets.rows.filter
    (fun r => decide (d ∈ r.domains) && (domain_input p d first n).is_removed r.id)).length =
      n := by
  have hall : (domain_input p d first n).topology.targets.rows.filter
      (fun r => decide (d ∈ r.domains) && (domain_input p d first n).is_removed r.id) =
      (links first n 1 [d]).rows := by
    apply List.filter_eq_self.mpr
    intro r hr
    obtain ⟨k, hk, rfl⟩ := mem_links.mp hr
    rw [Bool.and_eq_true, decide_eq_true_eq]
    exact ⟨List.mem_singleton_self d, mem_domain_input.mpr ⟨k, hk, rfl⟩⟩
  rw [hall]
  simp [links]

/-- The projection is satisfied as long as the loosest rule of the domain allows it. -/
theorem domain_input_bounds (hfirst : ∀ c ∈ p.contracts, ∀ m ∈ c.members, m.index < first)
    (hn : n ≤ effective_max_out (p.domain_limits_for d)) : (domain_input p d first n).Bounds := by
  have hfound : ∀ k < n, (domain_input p d first n).topology.target (link (first + k)) =
      some (record (first + k) 1 [d]) := fun k hk => find_link hk
  constructor
  · intro t ht
    obtain ⟨k, hk, rfl⟩ := mem_domain_input.mp ht
    rw [hfound k hk]
    exact ⟨rfl, fun _ => rfl⟩
  · intro t ht pool hindexed
    cases hindexed
  · intro t ht r hr x hx _
    obtain ⟨k, hk, rfl⟩ := mem_domain_input.mp ht
    obtain rfl := Option.some.inj ((hfound k hk).symm.trans hr)
    obtain rfl := List.mem_singleton.mp hx
    refine le_trans ?_ hn
    refine (List.length_filter_le _ _).trans ?_
    simp [domain_input]
  · rintro c hc ⟨m, hm, hplanned⟩
    obtain ⟨k, _, rfl⟩ := List.mem_map.mp hplanned
    have hbelow : first + k < first := hfirst c hc _ hm
    omega

end Domains

end Probe

/-! ## The condition -/

namespace Policy

open Probe ImpactInput

variable {p : Policy}

/-- Every rule holds as stated whenever a projection under the policy is satisfied. -/
def Enforced (p : Policy) : Prop :=
  ∀ i : ImpactInput, i.policy = p → i.topology.validate = .ok () →
    (compute_impact i).satisfied = true → i.RulesHold

/-- What an enforced policy keeps of the smallest pool the projection lets through. -/
theorem Enforced.pool (h : p.Enforced) (id : PoolId) :
    (∀ rule ∈ p.redundancy, rule.pool = id →
      rule.min_viable + rule.tolerated_losses ≤ p.required_total id) ∧
    (∀ rule ∈ p.headroom, rule.pool = id → (p.redundancy_for id).min_viable +
      (p.redundancy_for id).tolerated_losses + rule.reserve_units ≤ p.required_total id) := by
  obtain ⟨first, hfirst⟩ := exists_unbound p
  have hrules := h (pool_input p id first (p.required_total id)) rfl pool_input_validates
    (satisfied_iff.mpr (pool_input_bounds hfirst rfl))
  have htouched : ∃ m ∈ [link first, link (first + 1)],
      m ∈ (pool_input p id first (p.required_total id)).planned_removed :=
    ⟨link first, List.mem_cons_self, List.mem_singleton_self _⟩
  constructor
  · rintro rule hrule rfl
    have := hrules.redundancy rule hrule _ pool_input_pool htouched
    rwa [pool_input_surviving] at this
  · rintro rule hrule rfl
    have := hrules.headroom rule hrule _ pool_input_pool htouched
    rwa [pool_input_surviving] at this

/-- The first rules of the pool are themselves among those that hold, so they do not wrap. -/
theorem Enforced.fits (h : p.Enforced) (id : PoolId) : p.stated_requirement id < 4294967296 := by
  obtain ⟨hredundancy, hheadroom⟩ := h.pool id
  suffices hle : p.stated_requirement id ≤ p.required_total id by
    rw [required_total_eq] at hle
    exact hle.trans_lt (Nat.mod_lt _ (by decide))
  cases hreserve : p.headroom_for id with
  | some rule =>
    have hpool : rule.pool = id := by simpa using List.find?_some hreserve
    have := hheadroom rule (List.mem_of_find?_eq_some hreserve) hpool
    simpa [stated_requirement, hreserve] using this
  | none =>
    cases hfirst : p.redundancy.find? (fun r => r.pool = id) with
    | some rule =>
      have hpool : rule.pool = id := by simpa using List.find?_some hfirst
      have := hredundancy rule (List.mem_of_find?_eq_some hfirst) hpool
      simpa [stated_requirement, redundancy_for, hreserve, hfirst] using this
    | none =>
      simp [stated_requirement, required_total, redundancy_for, hreserve, hfirst,
        default_redundancy_rule, RedundancyRule.required_serving_units, wrap32]

theorem Enforced.decisive (h : p.Enforced) : p.Decisive := by
  have hle : ∀ id, p.required_total id ≤ p.stated_requirement id := by
    intro id
    rw [required_total_eq]
    exact Nat.mod_le _ _
  constructor
  · intro rule hrule
    exact ⟨h.fits rule.pool, ((h.pool rule.pool).1 rule hrule rfl).trans (hle _)⟩
  · intro rule hrule
    exact ⟨h.fits rule.pool, ((h.pool rule.pool).2 rule hrule rfl).trans (hle _)⟩
  · intro rule hrule hsmall other hother hsame
    by_contra hloose
    obtain ⟨first, hfirst⟩ := exists_unbound p
    -- One member more than the rule allows is still no more than the other one allows.
    have hallowed : rule.max_out + 1 ≤ effective_max_out (p.domain_limits_for rule.domain) :=
      le_trans (by omega) (le_effective_max_out (List.mem_filter.mpr ⟨hother, by simp [hsame]⟩))
    have hrules := h (domain_input p rule.domain first (rule.max_out + 1)) rfl
      (domain_input_validates hsmall) (satisfied_iff.mpr (domain_input_bounds hfirst hallowed))
    have hbound := hrules.domain_limits rule hrule
      ⟨record (first + 0) 1 [rule.domain], mem_links.mpr ⟨0, by omega, rfl⟩,
        List.mem_map.mpr ⟨0, List.mem_range.mpr (by omega), rfl⟩, List.mem_singleton_self _⟩
    rw [domain_input_out] at hbound
    omega

/-- Under a policy every declared rule is enforced on every input exactly when the enforced
    bounds imply the declared ones. -/
theorem every_rule_enforced_iff (p : Policy) :
    (∀ i : ImpactInput, i.policy = p → i.topology.validate = .ok () →
      (compute_impact i).satisfied = true → i.RulesHold) ↔ p.Decisive := by
  constructor
  · exact Enforced.decisive
  · rintro hp i rfl hvalid hsatisfied
    have hsize : i.topology.targets.size ≤ limits.kMaxTargetsPerTopology := by
      simp only [Topology.validate, Result.bind_eq_ok, refuse_if_eq_ok] at hvalid
      obtain ⟨_, hsize, _⟩ := hvalid
      simpa using hsize
    exact (satisfied_iff.mp hsatisfied).rules_hold hp hsize

end Policy

namespace Depot

/-- One member of the rack may be out; a later rule allows two. -/
def loosened : Policy :=
  { domain_limits := [{ domain := rack, max_out := 1 }, { domain := rack, max_out := 2 }] }

end Depot

/-- The looser of two rules for one rack decides, and the other is broken. -/
theorem Depot.loosened_rack_emptied : Depot.loosened.validate = .ok () ∧
    ¬ ∀ i : ImpactInput, i.policy = Depot.loosened → i.topology.validate = .ok () →
      (compute_impact i).satisfied = true → i.RulesHold := by
  refine ⟨by decide +kernel, ?_⟩
  intro h
  have hrules := h { Depot.both_out Depot.loosened with topology := Depot.racked } rfl
    (by decide +kernel) (by decide +kernel)
  have hbound :=
    hrules.domain_limits { domain := Depot.rack, max_out := 1 } (by decide) (by decide +kernel)
  revert hbound
  decide +kernel

end MaintenanceFabric
