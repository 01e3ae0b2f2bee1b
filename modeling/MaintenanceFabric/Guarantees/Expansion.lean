import MaintenanceFabric.Lib.Walk
import MaintenanceFabric.Guarantees.TopologyIndexes
import MaintenanceFabric.Guarantees.Validation

/-! # Scope expansion

    A replaced target may be hung below one of its own descendants; validation
    refuses such a topology.  In what it accepts containment is a forest, so
    the walk of `subtree` finds every descendant within its limit.
-/

namespace MaintenanceFabric

open Lib

namespace Topology

/-- Reached from `root` by links from parent to child. -/
def DescendsFrom (t : Topology) : TargetId → TargetId → Prop := Relation.ReflTransGen t.ChildOf

/-! ## Containment -/

theorem ChildOf.unique {t : Topology} {x p q : TargetId} (h : t.ChildOf x p) (h' : t.ChildOf x q) :
    p = q := by
  obtain ⟨r, hr, hp⟩ := h
  obtain ⟨r', hr', hq⟩ := h'
  rw [hr] at hr'
  cases hr'
  exact Option.some.inj (hp.symm.trans hq)

/-- A chain that passes the check leads to a target without a parent. -/
theorem rooted_of_check_chain {t : Topology} {id : TargetId} {fuel : Nat} {seen : List TargetId}
    {cursor : TargetRecord} {u : Unit} (hcursor : t.target cursor.id = some cursor)
    (h : t.check_chain id fuel seen cursor = .ok u) :
    Acc (fun p x => t.ChildOf x p) cursor.id := by
  -- The induction is on the budget of the walk: it ends at a root, or the check fails.
  induction fuel generalizing seen cursor with
  | zero => cases h
  | succ fuel ih =>
    rw [check_chain] at h
    cases hparent : cursor.parent with
    | none =>
      refine .intro _ ?_
      rintro p ⟨r, hr, hp⟩
      rw [hcursor] at hr
      cases hr
      rw [hparent] at hp
      cases hp
    | some parent =>
      simp only [hparent] at h
      by_cases hseen : cursor.id ∈ seen
      · rw [if_pos hseen] at h
        cases h
      · rw [if_neg hseen] at h
        cases hnext : t.target parent with
        | none =>
          rw [hnext] at h
          cases h
        | some next =>
          simp only [hnext] at h
          have hid : next.id = parent := Table.key_of_find hnext
          have hrooted := ih (by rw [hid, hnext]) h
          refine .intro _ ?_
          intro p hp
          rw [ChildOf.unique hp ⟨cursor, hcursor, hparent⟩, ← hid]
          exact hrooted

theorem rooted_of_validate {t : Topology} (h : t.validate = .ok ()) :
    WellFounded (fun p x => t.ChildOf x p) := by
  refine ⟨fun x => ?_⟩
  cases hfind : t.target x with
  | none =>
    refine .intro _ ?_
    rintro p ⟨r, hr, _⟩
    rw [hfind] at hr
    cases hr
  | some r =>
    simp only [validate, Result.bind_eq_ok] at h
    obtain ⟨_, _, _, _, _, _, _, htargets, _⟩ := h
    have hstored := check_all_ok htargets r (Table.mem_of_find hfind)
    simp only [check_stored_target, Result.bind_eq_ok] at hstored
    obtain ⟨_, _, _, _, _, _, hchain⟩ := hstored
    have hid : r.id = x := Table.key_of_find hfind
    rw [← hid]
    exact rooted_of_check_chain (by rw [hid, hfind]) hchain

/-- No target contains itself. -/
theorem acyclic_of_validate {t : Topology} (h : t.validate = .ok ()) (x : TargetId) :
    ¬ Relation.TransGen t.ChildOf x x := by
  intro hcycle
  have hswap : Relation.TransGen (fun p x => t.ChildOf x p) x x := Relation.transGen_swap.mpr hcycle
  exact (rooted_of_validate h).transGen.asymmetric _ _ hswap hswap

section Valid

variable {t : Topology}

theorem children_eq (h : t.Exact) : (fun a x => x ∈ t.children a) = Function.swap t.ChildOf := by
  funext a x
  exact propext (h.children.mem a x)

theorem descends_iff_below (h : t.Exact) {x root : TargetId} :
    t.DescendsFrom x root ↔ Below t.children root x := by
  unfold DescendsFrom Below
  rw [children_eq h, Relation.reflTransGen_swap]

theorem forest_of_validate (h : t.Exact) (hvalid : t.validate = .ok ()) : Forest t.children := by
  refine ⟨fun a => (h.children.ascending a).imp ne_of_lt, ?_, ?_⟩
  · intro x a b ha hb
    exact ChildOf.unique ((h.children.mem a x).mp ha) ((h.children.mem b x).mp hb)
  · intro a hcycle
    rw [children_eq h, Relation.transGen_swap] at hcycle
    exact acyclic_of_validate hvalid a hcycle

theorem DescendsFrom.contains {x root : TargetId} (h : t.DescendsFrom x root)
    (hroot : t.contains root = true) : t.contains x = true := by
  rcases Relation.ReflTransGen.cases_head h with rfl | ⟨p, ⟨r, hr, _⟩, _⟩
  · exact hroot
  · unfold Topology.contains
    rw [hr]
    rfl

theorem subtree_loop_eq (t : Topology) (visits : Nat) (stack : List TargetId) :
    t.subtree_loop visits stack = walk t.children visits stack := by
  induction visits generalizing stack with
  | zero => rfl
  | succ visits ih =>
    cases stack with
    | nil => rfl
    | cons current stack => rw [subtree_loop, walk, ih]

/-- The walk ends by itself, and has found what descends from its root. -/
theorem subtree_loop_spec (h : t.Exact) (hvalid : t.validate = .ok ()) {root : TargetId}
    (hroot : t.contains root = true) {visits : Nat} (henough : t.targets.size ≤ visits) :
    (t.subtree_loop visits [root]).length ≤ t.targets.size ∧
      ∀ x, x ∈ t.subtree_loop visits [root] ↔ t.DescendsFrom x root := by
  have hnodes : ∀ x, Below t.children root x → x ∈ t.targets.rows.map TargetRecord.id := by
    intro x hx
    have hdeclared := ((descends_iff_below h).mpr hx).contains hroot
    obtain ⟨r, hr⟩ := Option.isSome_iff_exists.mp hdeclared
    exact List.mem_map.mpr ⟨r, Table.mem_of_find hr, Table.key_of_find hr⟩
  have hlength : (t.targets.rows.map TargetRecord.id).length = t.targets.size := List.length_map _
  obtain ⟨hnodup, hspec⟩ := walk_spec (forest_of_validate h hvalid) hnodes (hlength ▸ henough)
  rw [subtree_loop_eq]
  constructor
  · rw [← hlength]
    exact (List.subperm_of_subset hnodup (fun x hx => hnodes x ((hspec x).mp hx))).length_le
  · intro x
    rw [hspec, descends_iff_below h]

theorem mem_subtree (h : t.Exact) (hvalid : t.validate = .ok ()) {x root : TargetId} :
    x ∈ t.subtree root ↔ t.contains root = true ∧ t.DescendsFrom x root := by
  unfold subtree
  by_cases hroot : t.contains root = true
  · have hsize := (validate_sizes hvalid).1
    rw [if_pos hroot, mem_sorted_unique,
      (subtree_loop_spec h hvalid hroot (Nat.le_succ_of_le hsize)).2, and_iff_right hroot]
  · rw [if_neg hroot]
    simp [hroot]

theorem mem_expansion (h : t.Exact) (hvalid : t.validate = .ok ()) {x : TargetId}
    {request : List TargetId} : x ∈ t.removal_set request ↔
      ∃ id ∈ request, t.contains id = true ∧ t.DescendsFrom x id := by
  simp only [mem_removal_set, mem_subtree h hvalid]

end Valid

theorem ascending_removal_set (t : Topology) (request : List TargetId) :
    (t.removal_set request).Pairwise (· < ·) := by
  have hfold : ∀ (request : List TargetId) (out : List TargetId), out.Nodup →
      (request.foldl (fun out id => push_all_unique out (t.subtree id)) out).Nodup := by
    intro request
    induction request with
    | nil => exact fun _ h => h
    | cons id request ih => exact fun out h => ih _ (nodup_push_all_unique h _)
  exact ascending_sort (hfold request [] List.nodup_nil)

end Topology

/-- In an accepted topology a request expands to its declared targets and what descends from
    them. -/
theorem scope_expansion_exact {t : Topology} (hbuilt : t.Built) (hvalid : t.validate = .ok ()) :
    (∀ x, ¬ Relation.TransGen t.ChildOf x x) ∧
    (∀ id, t.contains id = true →
      (t.subtree_loop (limits.kMaxTargetsPerTopology + 1) [id]).length ≤
        limits.kMaxTargetsPerTopology) ∧
    ∀ request, (t.removal_set request).Pairwise (· < ·) ∧
      (∀ x, x ∈ t.removal_set request ↔
        ∃ id ∈ request, t.contains id = true ∧ t.DescendsFrom x id) ∧
      (∀ wider, request ⊆ wider → t.removal_set request ⊆ t.removal_set wider) ∧
      t.removal_set (t.removal_set request) = t.removal_set request := by
  have hexact := hbuilt.exact
  have hsize := (Topology.validate_sizes hvalid).1
  refine ⟨Topology.acyclic_of_validate hvalid, ?_, ?_⟩
  · intro id hid
    exact ((Topology.subtree_loop_spec hexact hvalid hid (Nat.le_succ_of_le hsize)).1).trans hsize
  · intro request
    have hmem : ∀ request x, x ∈ t.removal_set request ↔
        ∃ id ∈ request, t.contains id = true ∧ t.DescendsFrom x id :=
      fun _ _ => Topology.mem_expansion hexact hvalid
    refine ⟨t.ascending_removal_set request, hmem request, ?_, ?_⟩
    · intro wider hwider x hx
      obtain ⟨id, hid, hdescends⟩ := (hmem request x).mp hx
      exact (hmem wider x).mpr ⟨id, hwider hid, hdescends⟩
    · refine (t.ascending_removal_set _).eq_of_mem_iff (t.ascending_removal_set _) ?_
      intro x
      rw [hmem, hmem]
      constructor
      · rintro ⟨y, hy, _, hxy⟩
        obtain ⟨id, hid, hdeclared, hyid⟩ := (hmem request y).mp hy
        exact ⟨id, hid, hdeclared, hxy.trans hyid⟩
      · rintro ⟨id, hid, hdeclared, hdescends⟩
        exact ⟨id, (hmem request id).mpr ⟨id, hid, hdeclared, .refl⟩, hdeclared, hdescends⟩

/-- A tower three switches high: a request for the second takes the top with it. -/
theorem scope_of_tower :
    (¬ Relation.TransGen (Topology.Tower.tower 1).ChildOf ⟨.Switch, 2⟩ ⟨.Switch, 2⟩) ∧
    ⟨.Switch, 1⟩ ∈ (Topology.Tower.tower 1).removal_set [⟨.Switch, 3⟩] ∧
    ⟨.Switch, 2⟩ ∉ (Topology.Tower.tower 1).removal_set [⟨.Switch, 3⟩] := by
  obtain ⟨hacyclic, _, hexact⟩ :=
    scope_expansion_exact (Topology.Tower.tower_built 1) (by decide +kernel)
  refine ⟨hacyclic _, ?_, ?_⟩
  · refine ((hexact _).2.1 _).mpr ⟨⟨.Switch, 3⟩, by decide, by decide, ?_⟩
    exact .single ⟨{ id := ⟨.Switch, 1⟩, parent := some ⟨.Switch, 3⟩ }, by decide, rfl⟩
  · intro h
    obtain ⟨id, hid, _, hdescends⟩ := ((hexact _).2.1 _).mp h
    rw [List.mem_singleton.mp hid] at hdescends
    rcases Relation.ReflTransGen.cases_head hdescends with heq | ⟨p, ⟨r, hr, hp⟩, _⟩
    · cases heq
    · have hroot : (Topology.Tower.tower 1).target ⟨.Switch, 2⟩ = some { id := ⟨.Switch, 2⟩ } := by
        decide
      rw [hroot] at hr
      cases hr
      cases hp

end MaintenanceFabric
