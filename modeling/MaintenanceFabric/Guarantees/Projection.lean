import MaintenanceFabric.Engine.Preconditions
import MaintenanceFabric.Engine.Projection

/-! # What the projection guarantees

    The verdict depends on the two sets only, and shrinking them never turns a
    satisfied projection into an unsatisfied one.  Its arithmetic is 32-bit,
    so it says what the rules say as long as the surviving units and the
    requirement wrap alike.
-/

namespace MaintenanceFabric

open Lib

namespace ImpactInput

variable {i : ImpactInput} {B P : List TargetId}

/-! ## Smaller sets -/

/-- The same question about other sets. -/
def with_sets (i : ImpactInput) (B P : List TargetId) : ImpactInput :=
  { i with baseline_removed := B, planned_removed := P }

theorem is_removed_shrinks (hB : B ⊆ i.baseline_removed) (hP : P ⊆ i.planned_removed) {t : TargetId}
    (h : (i.with_sets B P).is_removed t = true) : i.is_removed t = true := by
  unfold is_removed at h ⊢
  rw [Bool.or_eq_true, decide_eq_true_eq, decide_eq_true_eq] at h ⊢
  rcases h with hb | hp
  · exact .inl (hB hb)
  · exact .inr (hP hp)

theorem kept_shrinks (hB : B ⊆ i.baseline_removed) (hP : P ⊆ i.planned_removed) {m : TargetId}
    (h : (i.readiness.is_serving m && !i.is_removed m) = true) :
    ((i.with_sets B P).readiness.is_serving m && !(i.with_sets B P).is_removed m) = true := by
  obtain ⟨hserving, hkept⟩ := Bool.and_eq_true_iff.mp h
  refine Bool.and_eq_true_iff.mpr ⟨hserving, ?_⟩
  by_cases hout : (i.with_sets B P).is_removed m = true
  · rw [is_removed_shrinks hB hP hout] at hkept
    cases hkept
  · simpa using hout

theorem Bounds.shrinks (h : i.Bounds)
    (nowrap : ∀ pool ∈ i.topology.pools.rows,
      units_where i.topology pool.members (fun _ => true) < 4294967296)
    (hB : B ⊆ i.baseline_removed) (hP : P ⊆ i.planned_removed) : (i.with_sets B P).Bounds := by
  constructor
  · intro t ht
    obtain ⟨hdeclared, hmaintainable⟩ := h.targets t (is_removed_shrinks hB hP ht)
    exact ⟨hdeclared, fun hp => hmaintainable (hP hp)⟩
  · intro t ht pool hindexed hpool
    have hbound := h.pools t (is_removed_shrinks hB hP ht) pool hindexed hpool
    have hmore : i.surviving_units pool ≤ (i.with_sets B P).surviving_units pool :=
      units_where_mono (fun m _ => kept_shrinks hB hP)
    have hall : (i.with_sets B P).surviving_units pool ≤
        units_where i.topology pool.members (fun _ => true) := units_where_mono (fun _ _ _ => rfl)
    have hsum := nowrap pool (Table.mem_of_find hpool)
    have hexact : wrap32 ((i.with_sets B P).surviving_units pool) =
        (i.with_sets B P).surviving_units pool := Nat.mod_eq_of_lt (by omega)
    rw [hexact]
    exact (hbound.trans (Nat.mod_le _ _)).trans hmore
  · intro t ht r hr d hd hlimited
    have hbound := h.domains t (is_removed_shrinks hB hP ht) r hr d hd hlimited
    refine le_trans ?_ hbound
    unfold members_out
    rw [← List.countP_eq_length_filter, ← List.countP_eq_length_filter]
    exact List.countP_mono_left (fun m _ => is_removed_shrinks hB hP)
  · intro c hc htouched
    obtain ⟨m, hm, hplanned⟩ := htouched
    refine (h.contracts c hc ⟨m, hm, hP hplanned⟩).trans ?_
    unfold available
    rw [← List.countP_eq_length_filter, ← List.countP_eq_length_filter]
    exact List.countP_mono_left (fun m _ => kept_shrinks hB hP)

/-- Shrinking the sets keeps a satisfied projection satisfied, and neither the order of their
    elements nor how often they occur changes anything of the result. -/
theorem projection_of_sets (i : ImpactInput)
    (nowrap : ∀ pool ∈ i.topology.pools.rows,
      units_where i.topology pool.members (fun _ => true) < 4294967296) :
    (∀ B P, B ⊆ i.baseline_removed → P ⊆ i.planned_removed →
      (compute_impact i).satisfied = true →
      (compute_impact (i.with_sets B P)).satisfied = true) ∧
    (∀ B P, (∀ t, t ∈ B ↔ t ∈ i.baseline_removed) → (∀ t, t ∈ P ↔ t ∈ i.planned_removed) →
      compute_impact (i.with_sets B P) = compute_impact i) := by
  constructor
  · intro B P hB hP h
    exact satisfied_iff.mpr ((satisfied_iff.mp h).shrinks nowrap hB hP)
  · intro B P hB hP
    unfold compute_impact with_sets
    simp only [sorted_unique_congr hB, sorted_unique_congr hP]

end ImpactInput

/-! ## A depot of two switches -/

namespace Depot

def switch (n : Nat) : TargetId := { kind := .Switch, index := n }

def rack : DomainId := { kind := .Rack, index := 1 }

/-- Both switches stand in one rack and form one pool. -/
def built : Result Topology := do
  let t ← ({} : Topology).add_domain { id := rack }
  let t ← t.add_target { id := switch 1, domains := [rack] }
  let t ← t.add_target { id := switch 2, domains := [rack] }
  t.add_pool { id := ⟨1⟩, members := [switch 1, switch 2] }

def topology : Topology :=
  match built with
  | .ok t => t
  | .error _ => {}

/-- The same rack without the pool. -/
def racked : Topology :=
  match (do
    let t ← ({} : Topology).add_domain { id := rack }
    let t ← t.add_target { id := switch 1, domains := [rack] }
    t.add_target { id := switch 2, domains := [rack] }) with
  | .ok t => t
  | .error _ => {}

/-- Health is fresh for the switches of the list. -/
def seen (healthy : List Nat) : ReadinessView :=
  { entries := healthy.foldl (fun t n =>
      t.put { target := switch n, health := .Healthy, fresh := true }) Table.empty }

/-- The first switch is to go. -/
def one_out : ImpactInput :=
  { topology, policy := {}, readiness := seen [1, 2], baseline_removed := []
    planned_removed := [switch 1, switch 1] }

end Depot

namespace ImpactInput

theorem one_out_keeps_sets :
    (compute_impact Depot.one_out).satisfied = true ∧
    (compute_impact (Depot.one_out.with_sets [] [])).satisfied = true ∧
    compute_impact (Depot.one_out.with_sets [] [Depot.switch 1]) =
      compute_impact Depot.one_out := by
  obtain ⟨hsmaller, hsame⟩ := projection_of_sets Depot.one_out (by decide +kernel)
  have hsatisfied : (compute_impact Depot.one_out).satisfied = true := by decide +kernel
  refine ⟨hsatisfied, hsmaller [] [] (by simp) (by simp) hsatisfied, hsame _ _ ?_ ?_⟩
  · intro t
    exact Iff.rfl
  · intro t
    simp [Depot.one_out]

/-! ## Exactness -/

/-- Cut to 32 bits the two numbers still compare as they are: they wrapped equally often, or the
    one that wrapped more often also keeps the larger part of the last round. -/
def WrapAlike (surviving required : Nat) : Prop :=
  surviving / 4294967296 = required / 4294967296 ∨
    (required / 4294967296 < surviving / 4294967296 ∧ wrap32 required ≤ wrap32 surviving) ∨
    (surviving / 4294967296 < required / 4294967296 ∧ wrap32 surviving < wrap32 required)

theorem wrapped_le_iff {surviving required : Nat} :
    (wrap32 required ≤ wrap32 surviving ↔ required ≤ surviving) ↔ WrapAlike surviving required := by
  unfold WrapAlike wrap32
  constructor
  · intro h
    by_cases hle : required ≤ surviving
    · have := h.mpr hle
      omega
    · have : ¬ required % 4294967296 ≤ surviving % 4294967296 := fun hw => hle (h.mp hw)
      omega
  · intro h
    omega

/-- The pool has a member in one of the sets, so the projection has an entry for it. -/
def Examined (i : ImpactInput) (pool : PoolRecord) : Prop :=
  (∃ t, i.is_removed t = true ∧ pool.id ∈ i.topology.target_pools t) ∧
    i.topology.pool pool.id = some pool

theorem forall_pool_entries {Q : PoolImpact → PoolRecord → Prop} :
    (∀ e ∈ (compute_impact i).pools, ∀ pool, i.topology.pool e.pool = some pool → Q e pool) ↔
      ∀ pool, i.Examined pool → Q (i.pool_entry pool) pool := by
  constructor
  · rintro h pool ⟨htouched, hpool⟩
    exact h _ (mem_pool_entries.mpr ⟨pool, htouched, hpool, rfl⟩) pool hpool
  · intro h e he pool hpool
    obtain ⟨examined, htouched, hexamined, rfl⟩ := mem_pool_entries.mp he
    have hpool : i.topology.pool examined.id = some pool := hpool
    cases Option.some.inj (hexamined.symm.trans hpool)
    exact h pool ⟨htouched, hexamined⟩

/-- The headroom check reads the same comparison off the entry. -/
theorem headroom_agrees (i : ImpactInput) (c : PreconditionContext) :
    ({ c with impact := compute_impact i } : PreconditionContext).capacity_headroom.status =
        .Satisfied ↔
      ∀ e ∈ (compute_impact i).pools, 0 < e.reserve_units → e.satisfied = true := by
  have hflag : ∀ e ∈ (compute_impact i).pools,
      (e.remaining_units < wrap32 (e.required_units + e.reserve_units) ↔ e.satisfied = false) := by
    intro e he
    obtain ⟨pool, _, _, rfl⟩ := mem_pool_entries.mp he
    rw [← Bool.not_eq_true, i.pool_entry_ok, not_le, i.pool_entry_remaining]
    exact Iff.rfl
  unfold PreconditionContext.capacity_headroom
  simp only
  split
  · next hnone =>
    refine iff_of_true rfl ?_
    intro e he hreserve
    have hmiss := List.filter_eq_nil_iff.mp hnone e he
    simp only [hreserve, decide_true, Bool.true_and, decide_eq_true_eq, hflag e he,
      Bool.not_eq_false] at hmiss
    exact hmiss
  · next e rest hsome =>
    refine iff_of_false (by simp [PreconditionContext.violated]) ?_
    intro h
    have he : e ∈ (compute_impact i).pools.filter _ := hsome ▸ List.mem_cons_self
    obtain ⟨he, hbad⟩ := List.mem_filter.mp he
    rw [Bool.and_eq_true, decide_eq_true_eq, decide_eq_true_eq, hflag e he] at hbad
    rw [h e he hbad.1] at hbad
    cases hbad.2

/-- Entries are exact over the natural numbers, with the headroom check agreeing, precisely when
    for every pool looked at the two sums wrap alike. -/
theorem pool_arithmetic_exact_iff (i : ImpactInput) (c : PreconditionContext) :
    ((∀ e ∈ (compute_impact i).pools, ∀ pool, i.topology.pool e.pool = some pool →
        (e.satisfied = true ↔
          i.policy.stated_requirement e.pool ≤ i.surviving_units pool)) ∧
      (({ c with impact := compute_impact i } : PreconditionContext).capacity_headroom.status =
          .Satisfied ↔
        ∀ e ∈ (compute_impact i).pools, 0 < e.reserve_units → e.satisfied = true)) ↔
    ∀ pool, i.Examined pool →
      WrapAlike (i.surviving_units pool) (i.policy.stated_requirement pool.id) := by
  rw [forall_pool_entries (Q := fun e pool => (e.satisfied = true ↔
    i.policy.stated_requirement e.pool ≤ i.surviving_units pool))]
  have hentry : ∀ pool, ((i.pool_entry pool).satisfied = true ↔
      i.policy.stated_requirement pool.id ≤ i.surviving_units pool) ↔
      WrapAlike (i.surviving_units pool) (i.policy.stated_requirement pool.id) := by
    intro pool
    rw [i.pool_entry_ok, Policy.required_total_eq, wrapped_le_iff]
  constructor
  · intro h pool hpool
    exact (hentry pool).mp (h.1 pool hpool)
  · intro h
    exact ⟨fun pool hpool => (hentry pool).mpr (h pool hpool), headroom_agrees i c⟩

end ImpactInput

namespace Depot

/-- A reserve as large as the field allows, beyond the one unit that is always required. -/
def hoarded : Policy := { headroom := [{ pool := ⟨1⟩, reserve_units := 4294967295 }] }

/-- Both switches are to go. -/
def both_out (policy : Policy) : ImpactInput :=
  { topology, policy, readiness := seen [1, 2], baseline_removed := []
    planned_removed := [switch 1, switch 2] }

def pool : PoolRecord := { id := ⟨1⟩, members := [switch 1, switch 2] }

end Depot

namespace ImpactInput

/-- Two to the 32nd units are required, which is none at all: taking the whole pool out passes. -/
theorem hoarded_pool_emptied :
    Depot.topology.validate = .ok () ∧ Depot.hoarded.validate = .ok () ∧
    ∃ e ∈ (compute_impact (Depot.both_out Depot.hoarded)).pools,
      Depot.topology.pool e.pool = some Depot.pool ∧ e.satisfied = true ∧
      (Depot.both_out Depot.hoarded).surviving_units Depot.pool = 0 ∧
      Depot.hoarded.stated_requirement e.pool = 4294967296 := by
  refine ⟨by decide +kernel, by decide +kernel,
    (Depot.both_out Depot.hoarded).pool_entry Depot.pool, ?_, by decide +kernel, by decide +kernel,
    by decide +kernel, by decide +kernel⟩
  exact mem_pool_entries.mpr ⟨Depot.pool, ⟨Depot.switch 1, by decide +kernel, by decide +kernel⟩,
    by decide +kernel, rfl⟩

end ImpactInput

end MaintenanceFabric
