import MaintenanceFabric.Lib.Walk

/-! # The search for a cycle

    A worklist search that starts from a goal and looks for a way back to it.
    Nodes are expanded at most once, and a budget limits the expansions.  The
    search finds the goal exactly when the goal lies on a cycle, unless the
    budget runs out first; without a cycle it needs one expansion for each node
    that can be reached.
-/

namespace Lib

variable {α : Type*}

/-- Put the nodes that have not been seen on the frontier. -/
def discover [DecidableEq α] : List α → List α × List α → List α × List α
  | [], found => found
  | x :: xs, (frontier, seen) =>
      if x ∈ seen then discover xs (frontier, seen) else discover xs (x :: frontier, seen ++ [x])

inductive Verdict where
  | clear | cyclic | exhausted
  deriving DecidableEq, Repr

/-- Expand the top of the frontier until it is empty, or points back at the goal. -/
def search [DecidableEq α] (next : α → List α) (goal : α) : Nat → List α → List α → Verdict
  | _, [], _ => .clear
  | 0, _ :: _, _ => .exhausted
  | budget + 1, current :: frontier, seen =>
      if goal ∈ next current then .cyclic
      else
        let found := discover (next current) (frontier, seen)
        search next goal budget found.1 found.2

/-- What a discovery adds: each new node once. -/
theorem discover_spec [DecidableEq α] (xs frontier seen : List α) :
    ∃ fresh : List α, discover xs (frontier, seen) = (fresh.reverse ++ frontier, seen ++ fresh) ∧
      fresh.Nodup ∧ ∀ x, x ∈ fresh ↔ x ∈ xs ∧ x ∉ seen := by
  induction xs generalizing frontier seen with
  | nil => exact ⟨[], by simp [discover], List.nodup_nil, by simp⟩
  | cons x xs ih =>
    unfold discover
    by_cases hseen : x ∈ seen
    · obtain ⟨fresh, heq, hnodup, hmem⟩ := ih frontier seen
      rw [if_pos hseen]
      refine ⟨fresh, heq, hnodup, ?_⟩
      intro y
      rw [hmem y, List.mem_cons]
      constructor
      · rintro ⟨hy, hnew⟩
        exact ⟨.inr hy, hnew⟩
      · rintro ⟨rfl | hy, hnew⟩
        · exact absurd hseen hnew
        · exact ⟨hy, hnew⟩
    · obtain ⟨fresh, heq, hnodup, hmem⟩ := ih (x :: frontier) (seen ++ [x])
      have hx : x ∉ fresh := by
        intro hx
        exact ((hmem x).mp hx).2 (by simp)
      rw [if_neg hseen, heq]
      refine ⟨x :: fresh, by simp, List.nodup_cons.mpr ⟨hx, hnodup⟩, ?_⟩
      intro y
      rw [List.mem_cons, List.mem_cons, hmem y, List.mem_append, List.mem_singleton]
      by_cases hy : y = x
      · subst hy
        simp [hseen]
      · simp [hy]

section

variable {next : α → List α} {goal : α}

/-- Does a path lead from the goal back to it? -/
def Cyclic (next : α → List α) (goal : α) : Prop :=
  Relation.TransGen (fun a x => x ∈ next a) goal goal

/-- The search so far: what has been expanded, none of which points at the goal, and what has been
    seen. -/
structure Searching (next : α → List α) (goal : α) (expanded frontier seen : List α) : Prop where
  walking : Walking next goal expanded frontier
  seen : ∀ x, x ∈ seen ↔ x ∈ expanded ++ frontier
  onward : ∀ a ∈ expanded, goal ∉ next a

theorem searching_start : Searching next goal [] [goal] [goal] where
  walking := walking_start
  seen := by simp
  onward := by simp

/-- One expansion. -/
theorem Searching.step [DecidableEq α] {expanded frontier seen : List α} {current : α}
    (h : Searching next goal expanded (current :: frontier) seen) (hgoal : goal ∉ next current) :
    Searching next goal (expanded ++ [current]) (discover (next current) (frontier, seen)).1
      (discover (next current) (frontier, seen)).2 := by
  obtain ⟨fresh, heq, hfresh, hmem⟩ := discover_spec (next current) frontier seen
  have hall : ∀ x, x ∈ expanded ++ [current] ++ (fresh.reverse ++ frontier) ↔
      x ∈ expanded ++ current :: frontier ∨ x ∈ fresh := by
    intro x
    simp only [List.mem_append, List.mem_cons, List.not_mem_nil, List.mem_reverse, or_false]
    tauto
  have hdown : ∀ x ∈ fresh, x ∈ next current := fun x hx => ((hmem x).mp hx).1
  have hnew : ∀ x ∈ fresh, x ∉ expanded ++ current :: frontier := by
    intro x hx hold
    exact ((hmem x).mp hx).2 ((h.seen x).mpr hold)
  rw [heq]
  -- The order in which the frontier holds the new nodes does not matter to the invariant.
  refine ⟨⟨?_, ?_, ?_, ?_, (hall goal).mpr (.inl h.walking.root_mem)⟩, ?_, ?_⟩
  · have hperm : (expanded ++ [current] ++ (fresh.reverse ++ frontier)).Perm
        (fresh ++ (expanded ++ current :: frontier)) := by
      have hswap := List.perm_append_comm_assoc (expanded ++ [current]) fresh.reverse frontier
      rw [List.append_assoc expanded [current] frontier, List.singleton_append] at hswap
      exact hswap.trans ((List.reverse_perm fresh).append_right _)
    rw [hperm.nodup_iff, List.nodup_append]
    refine ⟨hfresh, h.walking.nodup, ?_⟩
    rintro x hx y hy rfl
    exact hnew x hx hy
  · intro x hx
    rcases (hall x).mp hx with hx | hx
    · exact h.walking.below x hx
    · exact (h.walking.below current (by simp)).tail (hdown x hx)
  · intro a ha x hx
    rw [hall]
    rcases List.mem_append.mp ha with ha | ha
    · exact .inl (h.walking.closed a ha x hx)
    · obtain rfl := List.mem_singleton.mp ha
      by_cases hold : x ∈ seen
      · exact .inl ((h.seen x).mp hold)
      · exact .inr ((hmem x).mpr ⟨hx, hold⟩)
  · intro x hx
    rcases (hall x).mp hx with hx | hx
    · rcases h.walking.parent x hx with hroot | ⟨a, ha, hchild⟩
      · exact .inl hroot
      · exact .inr ⟨a, List.mem_append_left _ ha, hchild⟩
    · exact .inr ⟨current, by simp, hdown x hx⟩
  · intro x
    rw [hall, List.mem_append, h.seen]
  · intro a ha
    rcases List.mem_append.mp ha with ha | ha
    · exact h.onward a ha
    · obtain rfl := List.mem_singleton.mp ha
      exact hgoal

/-- A search that has ended has seen no way back. -/
theorem Searching.ended {expanded seen : List α} (h : Searching next goal expanded [] seen) :
    ¬ Cyclic next goal := by
  intro hcycle
  obtain ⟨a, hbelow, hlast⟩ := Relation.TransGen.tail'_iff.mp hcycle
  exact h.onward a ((h.walking.ended a).mpr hbelow) hlast

/-- What a verdict says of the nodes that can be reached, when so many have been expanded and so
    many more may be. -/
def Verdict.Says (next : α → List α) (goal : α) (expansions : Nat) : Verdict → Prop
  | .cyclic => Cyclic next goal
  | .clear => ¬ Cyclic next goal ∧ ∃ reached : List α, reached.Nodup ∧
      (∀ x, x ∈ reached ↔ Below next goal x) ∧ reached.length ≤ expansions
  | .exhausted => ∃ reached : List α, reached.Nodup ∧ (∀ x ∈ reached, Below next goal x) ∧
      expansions < reached.length

variable [DecidableEq α]

theorem Searching.says {budget : Nat} {expanded frontier seen : List α}
    (h : Searching next goal expanded frontier seen) :
    (search next goal budget frontier seen).Says next goal (expanded.length + budget) := by
  induction budget generalizing expanded frontier seen with
  | zero =>
    cases frontier with
    | nil =>
      unfold search
      have hnodup := h.walking.nodup
      rw [List.append_nil] at hnodup
      exact ⟨h.ended, expanded, hnodup, h.walking.ended, Nat.le_refl _⟩
    | cons current frontier =>
      unfold search
      -- The budget is spent and a node is left: more can be reached than have been expanded.
      refine ⟨expanded ++ current :: frontier, h.walking.nodup, h.walking.below, ?_⟩
      simp
  | succ budget ih =>
    cases frontier with
    | nil =>
      unfold search
      have hnodup := h.walking.nodup
      rw [List.append_nil] at hnodup
      exact ⟨h.ended, expanded, hnodup, h.walking.ended, Nat.le_add_right _ _⟩
    | cons current frontier =>
      unfold search
      by_cases hgoal : goal ∈ next current
      · rw [if_pos hgoal]
        exact Relation.TransGen.tail' (h.walking.below current (by simp)) hgoal
      · rw [if_neg hgoal]
        have hrest := ih (h.step hgoal)
        -- An expansion takes one off the budget and adds one node to those expanded.
        have hcount : (expanded ++ [current]).length + budget = expanded.length + (budget + 1) := by
          simp only [List.length_append, List.length_singleton]
          omega
        rwa [hcount] at hrest

/-- Where no path leads back, the search is clear exactly when its budget covers every node that
    can be reached. -/
theorem search_clear_iff (hacyclic : ¬ Cyclic next goal) (budget : Nat) :
    search next goal budget [goal] [goal] = .clear ↔
      ∃ reached : List α, reached.Nodup ∧ (∀ x, x ∈ reached ↔ Below next goal x) ∧
        reached.length ≤ budget := by
  have hverdict : (search next goal budget [goal] [goal]).Says next goal (0 + budget) :=
    searching_start.says
  rw [Nat.zero_add] at hverdict
  constructor
  · intro hclear
    rw [hclear] at hverdict
    exact hverdict.2
  · rintro ⟨reached, hnodup, hmem, hlength⟩
    cases hsearch : search next goal budget [goal] [goal] with
    | clear => rfl
    | cyclic =>
      rw [hsearch] at hverdict
      exact absurd hverdict hacyclic
    | exhausted =>
      rw [hsearch] at hverdict
      -- More nodes than the budget covers can be reached, against the list that has them all.
      obtain ⟨more, hmore, hbelow, hlong⟩ := hverdict
      have hsub : more ⊆ reached := fun x hx => (hmem x).mpr (hbelow x hx)
      have hshort := (List.subperm_of_subset hmore hsub).length_le
      omega

end

end Lib
