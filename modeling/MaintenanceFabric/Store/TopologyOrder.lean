import MaintenanceFabric.Store.Entry

/-! # Which topologies come back

    The decoder adds the recorded targets one by one and needs every parent
    before its child.  The encoder sorts them by the length of their ancestor
    list, which stops growing at `kMaxTopologyChainDepth`; below that depth
    only the identity decides.
-/

namespace MaintenanceFabric

open Lib

namespace Topology

/-! ## Topologies built through the API -/

/-- The topologies that `add_domain`, `add_target` and `add_pool` build. -/
inductive Built : Topology → Prop
  | empty : Built {}
  | domain {t u : Topology} {record : DomainRecord} :
      Built t → t.add_domain record = .ok u → Built u
  | target {t u : Topology} {record : TargetRecord} :
      Built t → t.add_target record = .ok u → Built u
  | pool {t u : Topology} {record : PoolRecord} :
      Built t → t.add_pool record = .ok u → Built u

/-- What `add_domain` asks of a record. -/
structure DomainEntered (record : DomainRecord) : Prop where
  id : record.id.valid = true
  name : record.name.length ≤ limits.kMaxNameLength

/-- What `add_pool` asks of a record, its members' declaration apart. -/
structure PoolEntered (record : PoolRecord) : Prop where
  id : record.id.valid = true
  name : record.name.length ≤ limits.kMaxNameLength
  count : record.members.length ≤ limits.kMaxMembersPerPool
  some_member : record.members.isEmpty = false
  distinct : repeats record.members = false

/-- The checks of `add_domain` and `add_pool` hold of what is stored. -/
structure Entered (t : Topology) : Prop where
  domains : ∀ d ∈ t.domains.rows, DomainEntered d
  pools : ∀ p ∈ t.pools.rows, PoolEntered p

/-- The size guards of the `add` operations let a known record through. -/
theorem not_full_iff {α : Type} {size bound : Nat} {found : Option α} :
    (decide (size ≥ bound) && found.isNone) = false ↔ ¬ (size ≥ bound ∧ found = none) := by
  rw [← Bool.not_eq_true, Bool.and_eq_true, decide_eq_true_eq, Option.isNone_iff_eq_none]

theorem add_domain_ok {t u : Topology} {record : DomainRecord} :
    t.add_domain record = .ok u ↔ DomainEntered record ∧
      ¬ (t.domains.size ≥ limits.kMaxDomainsPerTopology ∧ t.domain record.id = none) ∧
      u = (t.with_domain record).touch := by
  simp only [add_domain, Result.bind_eq_ok, refuse_if_eq_ok, decide_eq_false_iff_not, Nat.not_lt,
    Except.ok.injEq, Bool.not_eq_false']
  constructor
  · rintro ⟨_, hid, _, hname, _, hsize, rfl⟩
    exact ⟨⟨hid, hname⟩, not_full_iff.mp hsize, rfl⟩
  · rintro ⟨⟨hid, hname⟩, hsize, rfl⟩
    exact ⟨(), hid, (), hname, (), not_full_iff.mpr hsize, rfl⟩

theorem add_pool_ok {t u : Topology} {record : PoolRecord} :
    t.add_pool record = .ok u ↔ PoolEntered record ∧
      ¬ (t.pools.size ≥ limits.kMaxPoolsPerTopology ∧ t.pool record.id = none) ∧
      (∀ m ∈ record.members, t.contains m = true) ∧ u = (t.with_pool record).touch := by
  have hmembers : ∀ v : Unit, check_all t.check_pool_member record.members = .ok v ↔
      ∀ m ∈ record.members, t.contains m = true := by
    intro v
    rw [check_all_iff]
    simp only [check_pool_member, refuse_if_eq_ok, Bool.not_eq_false']
  simp only [add_pool, Result.bind_eq_ok, refuse_if_eq_ok, decide_eq_false_iff_not, Nat.not_lt,
    Except.ok.injEq, hmembers, Bool.not_eq_false']
  constructor
  · rintro ⟨_, hid, _, hname, _, hcount, _, hsize, _, hsome, _, hdeclared, _, hdistinct, rfl⟩
    exact ⟨⟨hid, hname, hcount, hsome, hdistinct⟩, not_full_iff.mp hsize, hdeclared, rfl⟩
  · rintro ⟨⟨hid, hname, hcount, hsome, hdistinct⟩, hsize, hdeclared, rfl⟩
    exact ⟨(), hid, (), hname, (), hcount, (), not_full_iff.mpr hsize, (), hsome, (), hdeclared, (),
      hdistinct, rfl⟩

theorem add_target_ok {t u : Topology} {record : TargetRecord} :
    t.add_target record = .ok u →
      u.targets = t.targets.put record ∧ u.domains = t.domains ∧ u.pools = t.pools := by
  intro h
  unfold add_target at h
  split at h
  · cases h
  · cases h
    exact ⟨rfl, rfl, rfl⟩

theorem Built.entered {t : Topology} (h : t.Built) : t.Entered := by
  induction h with
  | empty =>
    constructor
    · intro d hd
      cases hd
    · intro p hp
      cases hp
  | domain _ hadd ih =>
    obtain ⟨hrecord, -, rfl⟩ := add_domain_ok.mp hadd
    refine ⟨?_, ih.pools⟩
    intro d hd
    rcases Table.mem_put.mp hd with rfl | ⟨hold, _⟩
    · exact hrecord
    · exact ih.domains d hold
  | target _ hadd ih =>
    obtain ⟨-, hdomains, hpools⟩ := add_target_ok hadd
    exact ⟨by rw [hdomains]; exact ih.domains, by rw [hpools]; exact ih.pools⟩
  | pool _ hadd ih =>
    obtain ⟨hrecord, -, -, rfl⟩ := add_pool_ok.mp hadd
    refine ⟨ih.domains, ?_⟩
    intro p hp
    rcases Table.mem_put.mp hp with rfl | ⟨hold, _⟩
    · exact hrecord
    · exact ih.pools p hold

/-! ## What validation and digest look at -/

theorem check_chain_congr {t u : Topology} (h : u.target = t.target) (id : TargetId) (fuel : Nat)
    (seen : List TargetId) (cursor : TargetRecord) :
    u.check_chain id fuel seen cursor = t.check_chain id fuel seen cursor := by
  induction fuel generalizing seen cursor with
  | zero => rfl
  | succ fuel ih =>
    simp only [check_chain, h, ih]

/-- Topologies with the same records pass the same validation. -/
theorem validate_congr {t u : Topology} (htargets : u.targets = t.targets)
    (hdomains : u.domains = t.domains) (hpools : u.pools = t.pools) : u.validate = t.validate := by
  have htarget : u.target = t.target := by
    funext id
    rw [target, target, htargets]
  have hdomain : u.domain = t.domain := by
    funext id
    rw [domain, domain, hdomains]
  have hcontains : u.contains = t.contains := by
    funext id
    rw [contains, contains, htarget]
  have hstored : u.check_stored_target = t.check_stored_target := by
    funext record
    simp only [check_stored_target, hcontains, hdomain, htargets, check_chain_congr htarget]
  have hpool : u.check_stored_pool = t.check_stored_pool := by
    funext record
    simp only [check_stored_pool, hcontains]
  simp only [validate, htargets, hdomains, hpools, hstored, hpool]

theorem digest_congr {t u : Topology} (htargets : u.targets = t.targets)
    (hdomains : u.domains = t.domains) (hpools : u.pools = t.pools) : u.digest = t.digest := by
  simp only [digest, htargets, hdomains, hpools]

/-! ## Replaying the recorded entries -/

theorem recorded_name_of_le {name : Text} (h : name.length ≤ limits.kMaxNameLength) :
    recorded_name name = name := clip_of_le h

/-- Domains are added whatever their order. -/
theorem replay_domains {l : List DomainRecord} {u : Topology} (h : ∀ d ∈ l, DomainEntered d)
    (hsize : u.domains.size + l.length ≤ limits.kMaxDomainsPerTopology) :
    ∃ v, l.foldlM (fun u d => added (u.add_domain { d with name := recorded_name d.name })) u =
        .ok v ∧ v.domains = l.foldl Table.put u.domains ∧ v.targets = u.targets ∧
      v.pools = u.pools := by
  induction l generalizing u with
  | nil => exact ⟨u, rfl, rfl, rfl, rfl⟩
  | cons d l ih =>
    have hd := h d List.mem_cons_self
    simp only [List.length_cons] at hsize
    have hadd : u.add_domain { d with name := recorded_name d.name } =
        .ok (u.with_domain d).touch := by
      rw [recorded_name_of_le hd.name]
      refine add_domain_ok.mpr ⟨hd, ?_, rfl⟩
      rintro ⟨hfull, _⟩
      omega
    have hgrown : (u.domains.put d).size ≤ u.domains.size + 1 := Table.size_put_le _ _
    obtain ⟨v, hv, hdomains, htargets, hpools⟩ := ih (u := (u.with_domain d).touch)
      (fun x hx => h x (List.mem_cons_of_mem _ hx)) (by
        show (u.domains.put d).size + l.length ≤ _
        omega)
    refine ⟨v, ?_, hdomains, htargets, hpools⟩
    rw [List.foldlM_cons, hadd]
    exact hv

/-- So are pools of declared targets. -/
theorem replay_pools {l : List PoolRecord} {u : Topology} (h : ∀ p ∈ l, PoolEntered p)
    (hdeclared : ∀ p ∈ l, ∀ m ∈ p.members, u.contains m = true)
    (hsize : u.pools.size + l.length ≤ limits.kMaxPoolsPerTopology) :
    ∃ v, l.foldlM (fun u p => added (u.add_pool { p with name := recorded_name p.name })) u =
        .ok v ∧ v.pools = l.foldl Table.put u.pools ∧ v.targets = u.targets ∧
      v.domains = u.domains := by
  induction l generalizing u with
  | nil => exact ⟨u, rfl, rfl, rfl, rfl⟩
  | cons p l ih =>
    have hp := h p List.mem_cons_self
    simp only [List.length_cons] at hsize
    have hadd : u.add_pool { p with name := recorded_name p.name } =
        .ok (u.with_pool p).touch := by
      rw [recorded_name_of_le hp.name]
      refine add_pool_ok.mpr ⟨hp, ?_, hdeclared p List.mem_cons_self, rfl⟩
      rintro ⟨hfull, _⟩
      omega
    have hgrown : (u.pools.put p).size ≤ u.pools.size + 1 := Table.size_put_le _ _
    obtain ⟨v, hv, hpools, htargets, hdomains⟩ := ih (u := (u.with_pool p).touch)
      (fun x hx => h x (List.mem_cons_of_mem _ hx))
      (fun x hx => hdeclared x (List.mem_cons_of_mem _ hx)) (by
        show (u.pools.put p).size + l.length ≤ _
        omega)
    refine ⟨v, ?_, hpools, htargets, hdomains⟩
    rw [List.foldlM_cons, hadd]
    exact hv

/-! ### Targets -/

/-- Every target of the list has its parent before it, or among those already `seen`. -/
def parents_first : List TargetId → List TargetRecord → Prop
  | _, [] => True
  | seen, r :: rs => (∀ p, r.parent = some p → p ∈ seen) ∧ parents_first (r.id :: seen) rs

theorem parents_first_iff {seen : List TargetId} {l : List TargetRecord} :
    parents_first seen l ↔ ∀ l1 r l2, l = l1 ++ r :: l2 → ∀ p, r.parent = some p →
      p ∈ seen ∨ p ∈ l1.map TargetRecord.id := by
  induction l generalizing seen with
  | nil => simp [parents_first]
  | cons a l ih =>
    rw [parents_first, ih]
    constructor
    · rintro ⟨hfirst, hrest⟩ l1 r l2 hsplit p hp
      cases l1 with
      | nil =>
        obtain ⟨rfl, rfl⟩ := List.cons.inj hsplit
        exact .inl (hfirst p hp)
      | cons b l1 =>
        obtain ⟨rfl, htail⟩ := List.cons.inj hsplit
        rcases hrest l1 r l2 htail p hp with hseen | hbefore
        · rcases List.mem_cons.mp hseen with rfl | hseen
          · exact .inr List.mem_cons_self
          · exact .inl hseen
        · exact .inr (List.mem_cons_of_mem _ hbefore)
    · intro h
      refine ⟨?_, ?_⟩
      · intro p hp
        simpa using h [] a l rfl p hp
      · intro l1 r l2 hsplit p hp
        have hcase := h (a :: l1) r l2 (by rw [hsplit]; rfl) p hp
        simp only [List.map_cons, List.mem_cons] at hcase ⊢
        tauto

/-- A stored target passes the checks of `add_target` except for the parent. -/
structure TargetEntered (u : Topology) (r : TargetRecord) : Prop where
  record : validate_target_record r = .ok ()
  parent : r.parent ≠ some r.id
  domains : ∀ d ∈ r.domains, d.valid = true ∧ (u.domain d).isSome = true

theorem TargetEntered.name {u : Topology} {r : TargetRecord} (h : TargetEntered u r) :
    r.name.length ≤ limits.kMaxNameLength := by
  have hrecord := h.record
  simp only [validate_target_record, Result.bind_eq_ok, refuse_if_eq_ok, decide_eq_false_iff_not,
    Nat.not_lt] at hrecord
  obtain ⟨_, _, _, hname, _⟩ := hrecord
  exact hname

theorem check_target_iff {u : Topology} {r : TargetRecord} (h : TargetEntered u r)
    (hsize : u.targets.size < limits.kMaxTargetsPerTopology) :
    u.check_target r = .ok () ↔ ∀ p, r.parent = some p → u.contains p = true := by
  have hroom : decide (u.targets.size ≥ limits.kMaxTargetsPerTopology) = false := by
    simpa using hsize
  have hdomains : check_all u.check_domain_reference r.domains = .ok () := by
    refine check_all_iff.mpr ?_
    intro d hd
    obtain ⟨hvalid, hsome⟩ := h.domains d hd
    simp only [check_domain_reference, Result.bind_eq_ok, refuse_if_eq_ok]
    exact ⟨(), by simp [hvalid], by simpa [Option.isSome_iff_ne_none] using hsome⟩
  have hroom' : refuse_if (decide (u.targets.size ≥ limits.kMaxTargetsPerTopology) &&
      !u.contains r.id) (make_error .LimitExceeded
        (text "topology reached the maximum number of targets")) = .ok () := by
    rw [hroom, Bool.false_and]
    rfl
  rw [check_target, h.record, Result.ok_bind, hroom', Result.ok_bind, hdomains]
  unfold check_parent
  cases hparent : r.parent with
  | none => simp [ok_status, Result.ok_bind]
  | some p =>
    have hself : p ≠ r.id := by
      rintro rfl
      exact h.parent hparent
    simp [Result.bind_eq_ok, refuse_if_eq_ok, hself]

theorem TargetEntered.congr {u v : Topology} {r : TargetRecord} (h : TargetEntered u r)
    (hdomains : v.domains = u.domains) : TargetEntered v r := by
  refine ⟨h.record, h.parent, ?_⟩
  intro d hd
  rw [domain, hdomains]
  exact h.domains d hd

/-- A target of a recorded list is added exactly when its parent is there already. -/
theorem replay_target {u : Topology} {r : TargetRecord} (h : TargetEntered u r)
    (hsize : u.targets.size < limits.kMaxTargetsPerTopology) :
    (∃ v, added (u.add_target { r with name := recorded_name r.name }) = .ok v) ↔
      ∀ p, r.parent = some p → u.contains p = true := by
  rw [recorded_name_of_le h.name, ← check_target_iff h hsize]
  simp only [added_eq_ok, add_target]
  constructor
  · rintro ⟨v, hv⟩
    split at hv
    · cases hv
    · next hcheck => exact hcheck
  · intro hcheck
    split
    · next herror =>
      rw [hcheck] at herror
      cases herror
    · exact ⟨_, rfl⟩

theorem contains_put {u v : Topology} {r : TargetRecord} (h : v.targets = u.targets.put r)
    (x : TargetId) : v.contains x = true ↔ x = r.id ∨ u.contains x = true := by
  simp only [contains, target, h, Table.find_put]
  by_cases hx : r.id = x
  · simp [hx]
  · simp [hx, Ne.symm hx]

/-- Targets are added in the order of the list as long as no child comes before its parent. -/
theorem replay_targets {l : List TargetRecord} {seen : List TargetId} {u : Topology}
    (h : ∀ r ∈ l, TargetEntered u r)
    (hsize : u.targets.size + l.length ≤ limits.kMaxTargetsPerTopology)
    (hseen : ∀ x, u.contains x = true ↔ x ∈ seen) :
    (∃ v, l.foldlM (fun u r => added (u.add_target { r with name := recorded_name r.name })) u =
      .ok v) ↔ parents_first seen l := by
  -- The induction is on the targets still to come; `seen` are those already added.
  induction l generalizing seen u with
  | nil => exact iff_of_true ⟨u, rfl⟩ trivial
  | cons r l ih =>
    have hr := h r List.mem_cons_self
    simp only [List.length_cons] at hsize
    have hone := replay_target hr (by omega)
    simp only [hseen] at hone
    have hrest : ∀ w, added (u.add_target { r with name := recorded_name r.name }) = .ok w →
        ((∃ v, l.foldlM
          (fun u r => added (u.add_target { r with name := recorded_name r.name })) w = .ok v) ↔
            parents_first (r.id :: seen) l) := by
      intro w hw
      rw [recorded_name_of_le hr.name, added_eq_ok] at hw
      obtain ⟨htargets, hdomains, -⟩ := add_target_ok hw
      have hgrown : w.targets.size ≤ u.targets.size + 1 := htargets ▸ Table.size_put_le _ _
      refine ih ?_ (by omega) ?_
      · intro x hx
        exact (h x (List.mem_cons_of_mem _ hx)).congr hdomains
      · intro x
        rw [contains_put htargets, hseen, List.mem_cons]
    rw [parents_first, ← hone]
    simp only [List.foldlM_cons, Result.bind_eq_ok]
    constructor
    · rintro ⟨v, w, hw, hfold⟩
      exact ⟨⟨w, hw⟩, (hrest w hw).mp ⟨v, hfold⟩⟩
    · rintro ⟨⟨w, hw⟩, hlater⟩
      obtain ⟨v, hv⟩ := (hrest w hw).mpr hlater
      exact ⟨v, w, hw, hv⟩

theorem replayed_targets {l : List TargetRecord} {u v : Topology}
    (h : ∀ r ∈ l, r.name.length ≤ limits.kMaxNameLength)
    (hfold : l.foldlM (fun u r => added (u.add_target { r with name := recorded_name r.name })) u =
      .ok v) :
    v.targets = l.foldl Table.put u.targets ∧ v.domains = u.domains ∧ v.pools = u.pools := by
  induction l generalizing u with
  | nil =>
    cases hfold
    exact ⟨rfl, rfl, rfl⟩
  | cons r l ih =>
    rw [List.foldlM_cons, Result.bind_eq_ok] at hfold
    obtain ⟨w, hw, hrest⟩ := hfold
    rw [recorded_name_of_le (h r List.mem_cons_self), added_eq_ok] at hw
    obtain ⟨htargets, hdomains, hpools⟩ := add_target_ok hw
    have hlater := ih (fun x hx => h x (List.mem_cons_of_mem _ hx)) hrest
    rw [htargets, hdomains, hpools] at hlater
    exact hlater

/-! ### The recorded order -/

/-- Depth counted from further up is depth cut off earlier. -/
theorem ancestors_from_take (t : Topology) (d : Nat) (x : Option TargetRecord) :
    t.ancestors_from d x = (t.ancestors_from (d + 1) x).take d := by
  induction d generalizing x with
  | zero => simp [ancestors_from]
  | succ d ih =>
    cases x with
    | none => simp [ancestors_from]
    | some r =>
      cases hp : r.parent with
      | none => simp [ancestors_from, hp]
      | some p =>
        have hstep := ih (t.target p)
        rw [ancestors_from, ancestors_from]
        simp only [hp, List.take_succ_cons]
        rw [← hstep]

theorem ancestors_length_le (t : Topology) (id : TargetId) :
    (t.ancestors id).length ≤ limits.kMaxTopologyChainDepth := by
  unfold ancestors
  generalize limits.kMaxTopologyChainDepth = d
  generalize t.target id = x
  induction d generalizing x with
  | zero => simp [ancestors_from]
  | succ d ih =>
    cases x with
    | none => simp [ancestors_from]
    | some r =>
      cases hp : r.parent with
      | none => simp [ancestors_from, hp]
      | some p =>
        simp only [ancestors_from, hp, List.length_cons]
        exact Nat.succ_le_succ (ih _)

/-- A child lists one ancestor more than its parent, up to the bound. -/
theorem ancestors_length_child {t : Topology} {r : TargetRecord} {p : TargetId}
    (hr : t.target r.id = some r) (hp : r.parent = some p) :
    (t.ancestors r.id).length =
      1 + min (limits.kMaxTopologyChainDepth - 1) (t.ancestors p).length := by
  have htake := t.ancestors_from_take (limits.kMaxTopologyChainDepth - 1) (t.target p)
  have hdepth : limits.kMaxTopologyChainDepth - 1 + 1 = limits.kMaxTopologyChainDepth := rfl
  rw [hdepth] at htake
  rw [ancestors, hr, ← hdepth, ancestors_from]
  simp only [hp, List.length_cons]
  rw [htake, List.length_take, ← ancestors]
  omega

/-- A parent whose ancestor list is full needs the smaller identity. -/
def parents_recorded_first (t : Topology) : Prop :=
  ∀ r ∈ t.targets.rows, ∀ p, r.parent = some p →
    (t.ancestors p).length = limits.kMaxTopologyChainDepth → p < r.id

/-- The place of a target in the recorded order. -/
def recorded_place (t : Topology) (id : TargetId) : Nat ×ₗ TargetId :=
  toLex ((t.ancestors id).length, id)

theorem recorded_place_parent {t : Topology} {r : TargetRecord} {p : TargetId}
    (hr : t.target r.id = some r) (hp : r.parent = some p) :
    t.recorded_place p < t.recorded_place r.id ↔
      ((t.ancestors p).length = limits.kMaxTopologyChainDepth → p < r.id) := by
  have hchild := ancestors_length_child hr hp
  have hbound := t.ancestors_length_le p
  have hpos : 0 < limits.kMaxTopologyChainDepth := by decide
  rw [recorded_place, recorded_place, Prod.Lex.toLex_lt_toLex]
  by_cases hfull : (t.ancestors p).length = limits.kMaxTopologyChainDepth
  · have hsame : (t.ancestors p).length = (t.ancestors r.id).length := by omega
    simp [hfull, ← hsame]
  · have hless : (t.ancestors p).length < (t.ancestors r.id).length := by omega
    simp [hfull, hless]

theorem recorded_order_sorted (t : Topology) :
    (recorded_order t).Pairwise (fun a b => t.recorded_place a.id ≤ t.recorded_place b.id) := by
  unfold recorded_order sort_by
  exact List.pairwise_insertionSort _ _

/-- In the recorded order every parent precedes its children when it has the smaller place. -/
theorem parents_first_recorded {t : Topology} (hdeclared : ∀ r ∈ t.targets.rows,
    ∀ p, r.parent = some p → p ≠ r.id ∧ t.contains p = true) :
    parents_first [] (recorded_order t) ↔ t.parents_recorded_first := by
  have hperm := recorded_order_perm t
  have hplace : ∀ r ∈ t.targets.rows, ∀ p, r.parent = some p →
      (t.recorded_place p < t.recorded_place r.id ↔
        ((t.ancestors p).length = limits.kMaxTopologyChainDepth → p < r.id)) :=
    fun r hr p hp => recorded_place_parent (Table.find_iff_mem.mpr hr) hp
  rw [parents_first_iff]
  constructor
  -- Before it in the list is before it in the order, as the list is sorted and has no repeats.
  · intro h r hr p hp
    refine (hplace r hr p hp).mp ?_
    obtain ⟨l1, l2, hsplit⟩ := List.append_of_mem (hperm.mem_iff.mpr hr)
    have hbefore : p ∈ l1.map TargetRecord.id := by
      simpa using h l1 r l2 hsplit p hp
    obtain ⟨q, hq, rfl⟩ := List.mem_map.mp hbefore
    have hsorted := t.recorded_order_sorted
    rw [hsplit, List.pairwise_append] at hsorted
    refine lt_of_le_of_ne (hsorted.2.2 q hq r List.mem_cons_self) ?_
    intro heq
    have hkey : q.id = r.id := congrArg (fun x : Nat ×ₗ TargetId => (ofLex x).2) heq
    exact (hdeclared r hr _ hp).1 hkey
  · intro h l1 r l2 hsplit p hp
    have hr : r ∈ t.targets.rows := by
      refine hperm.mem_iff.mp ?_
      rw [hsplit]
      simp
    obtain ⟨hne, hcontains⟩ := hdeclared r hr p hp
    obtain ⟨q, hq⟩ := Option.isSome_iff_exists.mp hcontains
    obtain ⟨hmem, hkey⟩ := Table.find_eq_some_iff.mp hq
    have hlt := (hplace r hr p hp).mpr (h r hr p hp)
    have hin : q ∈ l1 ++ r :: l2 := hsplit ▸ hperm.mem_iff.mpr hmem
    refine .inr (List.mem_map.mpr ⟨q, ?_, hkey⟩)
    rcases List.mem_append.mp hin with hbefore | hafter
    · exact hbefore
    -- A parent behind its child would have a place that is not smaller.
    · exfalso
      have hsorted := t.recorded_order_sorted
      rw [hsplit, List.pairwise_append] at hsorted
      rcases List.mem_cons.mp hafter with rfl | hlater
      · exact hne hkey.symm
      · have hle := (List.pairwise_cons.mp hsorted.2.1).1 q hlater
        rw [hkey] at hle
        exact absurd hlt (not_lt.mpr hle)

/-! ## The round trip -/

/-- What validation says of a stored target. -/
theorem validate_target {t : Topology} (h : t.validate = .ok ()) {r : TargetRecord}
    (hr : r ∈ t.targets.rows) : validate_target_record r = .ok () ∧
      (∀ p, r.parent = some p → p ≠ r.id ∧ t.contains p = true) ∧
      ∀ d ∈ r.domains, (t.domain d).isSome = true := by
  simp only [validate, Result.bind_eq_ok] at h
  obtain ⟨_, _, _, _, _, _, _, htargets, _⟩ := h
  have hstored := check_all_ok htargets r hr
  simp only [check_stored_target, Result.bind_eq_ok, refuse_if_eq_ok] at hstored
  obtain ⟨_, hrecord, _, hparent, _, hdomains, _⟩ := hstored
  refine ⟨hrecord, ?_, ?_⟩
  · intro p hp
    rw [hp] at hparent
    simpa using hparent
  · intro d hd
    have hone := check_all_ok hdomains d hd
    simpa [Option.isSome_iff_ne_none, Option.isNone_iff_eq_none] using hone

theorem validate_pool {t : Topology} (h : t.validate = .ok ()) {p : PoolRecord}
    (hp : p ∈ t.pools.rows) : ∀ m ∈ p.members, t.contains m = true := by
  simp only [validate, Result.bind_eq_ok] at h
  obtain ⟨_, _, _, _, _, _, _, _, hpools⟩ := h
  have hstored := check_all_ok hpools p hp
  simp only [check_stored_pool, Result.bind_eq_ok] at hstored
  obtain ⟨_, _, hmembers⟩ := hstored
  intro m hm
  simpa using check_all_ok hmembers m hm

theorem validate_sizes {t : Topology} (h : t.validate = .ok ()) :
    t.targets.size ≤ limits.kMaxTargetsPerTopology ∧
      t.domains.size ≤ limits.kMaxDomainsPerTopology ∧
      t.pools.size ≤ limits.kMaxPoolsPerTopology := by
  simp only [validate, Result.bind_eq_ok, refuse_if_eq_ok, decide_eq_false_iff_not, Nat.not_lt]
    at h
  obtain ⟨_, htargets, _, hdomains, _, hpools, _⟩ := h
  exact ⟨htargets, hdomains, hpools⟩

/-- The same declarations, whatever their revision. -/
structure SameRecords (t u : Topology) : Prop where
  domains : u.domains = t.domains
  targets : u.targets = t.targets
  pools : u.pools = t.pools

/-- Replaying the entries of a validated topology gives its records back, and stops early only
    at a child recorded before its parent. -/
theorem recorded_topology_iff {t : Topology} (hbuilt : t.Built) (hv : t.validate = .ok ()) :
    (∃ u, recorded_topology t = .ok u ∧ SameRecords t u) ↔ t.parents_recorded_first := by
  have hentered := hbuilt.entered
  obtain ⟨htargets, hdomains, hpools⟩ := validate_sizes hv
  have hperm := recorded_order_perm t
  have hmem : ∀ r ∈ recorded_order t, r ∈ t.targets.rows := fun r hr => hperm.mem_iff.mp hr
  have hdeclared : ∀ r ∈ t.targets.rows, ∀ p, r.parent = some p →
      p ≠ r.id ∧ t.contains p = true := fun r hr => (validate_target hv hr).2.1
  -- The domains.
  obtain ⟨v1, hv1, hdomains1, htargets1, hpools1⟩ := replay_domains (u := {}) hentered.domains (by
    have hsize : t.domains.rows.length ≤ limits.kMaxDomainsPerTopology := hdomains
    simpa [Table.size, Table.empty] using hsize)
  rw [Table.foldl_put_rows] at hdomains1
  -- The targets.
  have hready : ∀ r ∈ recorded_order t, TargetEntered v1 r := by
    intro r hr
    obtain ⟨hrecord, hparent, hdomain⟩ := validate_target hv (hmem r hr)
    refine ⟨hrecord, ?_, ?_⟩
    · intro hself
      exact (hparent r.id hself).1 rfl
    · intro d hd
      have hsome := hdomain d hd
      obtain ⟨x, hx⟩ := Option.isSome_iff_exists.mp hsome
      obtain ⟨hxmem, hkey⟩ := Table.find_eq_some_iff.mp hx
      refine ⟨?_, by rw [domain, hdomains1]; exact hsome⟩
      rw [← hkey]
      exact (hentered.domains x hxmem).id
  have hnames : ∀ r ∈ recorded_order t, r.name.length ≤ limits.kMaxNameLength :=
    fun r hr => (hready r hr).name
  have hroom : v1.targets.size + (recorded_order t).length ≤ limits.kMaxTargetsPerTopology := by
    rw [htargets1, hperm.length_eq]
    have hsize : t.targets.rows.length ≤ limits.kMaxTargetsPerTopology := htargets
    simpa [Table.size, Table.empty] using hsize
  have hnone : ∀ x, v1.contains x = true ↔ x ∈ ([] : List TargetId) := by
    intro x
    simp [contains, target, htargets1, Table.find_empty]
  have hfold := replay_targets hready hroom hnone
  rw [parents_first_recorded hdeclared] at hfold
  rw [← hfold]
  simp only [recorded_topology, hv1, Result.ok_bind, Result.bind_eq_ok]
  constructor
  · rintro ⟨u, ⟨v2, hv2, _⟩, _⟩
    exact ⟨v2, hv2⟩
  · rintro ⟨v2, hv2⟩
    obtain ⟨htargets2, hdomains2, hpools2⟩ := replayed_targets hnames hv2
    rw [htargets1, show ({} : Topology).targets = Table.empty from rfl, Table.foldl_put_perm hperm]
      at htargets2
    -- The pools.
    have hcontains : v2.contains = t.contains := by
      funext id
      simp only [contains, target, htargets2]
    obtain ⟨v3, hv3, hpools3, htargets3, hdomains3⟩ := replay_pools (u := v2) hentered.pools
      (by
        intro p hp m hm
        rw [hcontains]
        exact validate_pool hv hp m hm)
      (by
        rw [hpools2, hpools1]
        have hsize : t.pools.rows.length ≤ limits.kMaxPoolsPerTopology := hpools
        simpa [Table.size, Table.empty] using hsize)
    rw [hpools2, hpools1, show ({} : Topology).pools = Table.empty from rfl,
      Table.foldl_put_rows] at hpools3
    have hsame : SameRecords t v3 :=
      ⟨by rw [hdomains3, hdomains2, hdomains1], by rw [htargets3, htargets2], hpools3⟩
    have hvalid : v3.validate = .ok () := by
      rw [validate_congr hsame.targets hsame.domains hsame.pools, hv]
    exact ⟨v3, ⟨v2, hv2, v3, hv3, (), hvalid, rfl⟩, hsame⟩

/-- A validated topology survives its record exactly when no target whose parent's ancestor list
    is full has a smaller identity than that parent. -/
theorem topology_kept_iff {t : Topology} (hbuilt : t.Built) (h : t.machine)
    (hv : t.validate = .ok ()) :
    (∃ u, decode_topology_record (encode_topology_record t) = .ok u ∧
      u.domains = t.domains ∧ u.targets = t.targets ∧ u.pools = t.pools ∧ u.digest = t.digest) ↔
    ∀ r ∈ t.targets.rows, ∀ p, r.parent = some p →
      (t.ancestors p).length = limits.kMaxTopologyChainDepth → p < r.id := by
  have hrecorded := recorded_topology_iff hbuilt hv
  rw [parents_recorded_first] at hrecorded
  rw [← hrecorded]
  constructor
  · rintro ⟨u, hu, hdomains, htargets, hpools, -⟩
    exact ⟨u, (decode_encode_topology h hv).mp hu, hdomains, htargets, hpools⟩
  · rintro ⟨u, hu, hsame⟩
    exact ⟨u, (decode_encode_topology h hv).mpr hu, hsame.domains, hsame.targets, hsame.pools,
      digest_congr hsame.targets hsame.domains hsame.pools⟩

/-! ### A tall tower -/

namespace Tower

/-- Switches `2`, `3`, …, each inside the one before. -/
def floors (height : Nat) : List TargetRecord :=
  { id := ⟨.Switch, 2⟩ } :: (List.range height).map (fun i =>
    { id := ⟨.Switch, i + 3⟩, parent := some ⟨.Switch, i + 2⟩ })

/-- The target last added has the smallest identity. -/
def records (height : Nat) : List TargetRecord :=
  floors height ++ [{ id := ⟨.Switch, 1⟩, parent := some ⟨.Switch, height + 2⟩ }]

/-- The topology the records build. -/
def raised (height : Nat) : Result Topology := (records height).foldlM add_target {}

def tower (height : Nat) : Topology :=
  match raised height with
  | .ok t => t
  | .error _ => {}

theorem Built.targets {l : List TargetRecord} {t u : Topology} (h : t.Built)
    (hfold : l.foldlM add_target t = .ok u) : u.Built := by
  induction l generalizing t with
  | nil =>
    cases hfold
    exact h
  | cons r l ih =>
    rw [List.foldlM_cons, Result.bind_eq_ok] at hfold
    obtain ⟨w, hw, hrest⟩ := hfold
    exact ih (h.target hw) hrest

theorem tower_built (height : Nat) : (tower height).Built := by
  unfold tower
  cases h : raised height with
  | error e => exact Built.empty
  | ok t => exact Built.targets Built.empty h

/-- A topology of targets without domains fits the record format when its identities do. -/
theorem machine_of_targets {t : Topology} (hdomains : t.domains.rows = [])
    (hpools : t.pools.rows = [])
    (h : ∀ r ∈ t.targets.rows, r.id.index < u32_range ∧
      (∀ p ∈ r.parent, p.index < u32_range) ∧ r.domains = [] ∧ r.capacity_units < u32_range) :
    t.machine := by
  refine ⟨?_, ?_, ?_⟩
  · intro d hd
    rw [hdomains] at hd
    cases hd
  · intro r hr
    obtain ⟨hid, hparent, hnone, hcapacity⟩ := h r hr
    refine ⟨hid, hparent, ?_, hcapacity⟩
    rw [hnone]
    decide
  · intro p hp
    rw [hpools] at hp
    cases hp

theorem refused {r : Result Topology} (h : r.isOk = false) {u : Topology} : r ≠ .ok u := by
  rintro rfl
  cases h

theorem tall_machine : (tower 32).machine :=
  machine_of_targets (by decide +kernel) (by decide +kernel) (by decide +kernel)

theorem tall_validates : (tower 32).validate = .ok () := by decide +kernel

theorem tall_size : topology_size (tower 32) ≤ 2000 := by decide +kernel

theorem tall_undecodable {u : Topology} :
    decode_topology_record (encode_topology_record (tower 32)) ≠ .ok u := by
  intro hu
  exact refused (by decide +kernel) ((decode_encode_topology tall_machine tall_validates).mp hu)

end Tower

/-- With 32 floors the last target still comes back: its parent's ancestor list is not full. -/
theorem tower_kept : ∃ u, decode_topology_record (encode_topology_record (Tower.tower 31)) = .ok u ∧
    u.domains = (Tower.tower 31).domains ∧ u.targets = (Tower.tower 31).targets ∧
    u.pools = (Tower.tower 31).pools ∧ u.digest = (Tower.tower 31).digest := by
  refine (topology_kept_iff (Tower.tower_built 31) ?_ (by decide +kernel)).mpr (by decide +kernel)
  exact Tower.machine_of_targets (by decide +kernel) (by decide +kernel) (by decide +kernel)

/-- With one floor more the target is recorded before its parent, and the record is refused. -/
theorem tall_tower_refused : (Tower.tower 32).Built ∧ (Tower.tower 32).machine ∧
    (Tower.tower 32).validate = .ok () ∧
    (encode_topology_record (Tower.tower 32)).payload.length ≤ limits.kMaxJournalRecordBytes ∧
    ¬ ∃ u, decode_topology_record (encode_topology_record (Tower.tower 32)) = .ok u := by
  refine ⟨Tower.tower_built 32, Tower.tall_machine, Tower.tall_validates, ?_, ?_⟩
  · have hsize := Tower.tall_size
    rw [topology_record_length, limits.kMaxJournalRecordBytes]
    omega
  · rintro ⟨u, hu⟩
    exact Tower.tall_undecodable hu

end Topology

end MaintenanceFabric
