import Mathlib.Data.List.Nodup
import Mathlib.Data.List.Perm.Subperm
import Mathlib.Logic.Relation

/-! # The walk over a forest

    A depth-first walk with a stack and a limit on its visits.  In a forest it
    never meets a node twice: what is on the stack has not been visited, and
    its parent has.  So as many visits as there are nodes are enough, and the
    walk finds exactly what is below its root.
-/

namespace Lib

variable {α : Type*}

/-- Visit the top of the stack, at most so many times. -/
def walk (children : α → List α) : Nat → List α → List α
  | 0, _ => []
  | _ + 1, [] => []
  | visits + 1, current :: stack => current :: walk children visits (children current ++ stack)

/-- Nothing has two parents or is below itself. -/
structure Forest (children : α → List α) : Prop where
  nodup : ∀ a, (children a).Nodup
  one_parent : ∀ {x a b}, x ∈ children a → x ∈ children b → a = b
  acyclic : ∀ a, ¬ Relation.TransGen (fun a x => x ∈ children a) a a

/-- Reached by steps to a child. -/
def Below (children : α → List α) : α → α → Prop :=
  Relation.ReflTransGen (fun a x => x ∈ children a)

/-- The walk so far: what has been visited and what is on the stack. -/
structure Walking (children : α → List α) (root : α) (visited stack : List α) : Prop where
  nodup : (visited ++ stack).Nodup
  below : ∀ x ∈ visited ++ stack, Below children root x
  closed : ∀ a ∈ visited, ∀ x ∈ children a, x ∈ visited ++ stack
  parent : ∀ x ∈ visited ++ stack, x = root ∨ ∃ a ∈ visited, x ∈ children a
  root_mem : root ∈ visited ++ stack

section

variable {children : α → List α} {root : α}

theorem walking_start : Walking children root [] [root] := by
  refine ⟨List.nodup_singleton root, ?_, ?_, ?_, ?_⟩ <;> simp [Below, Relation.ReflTransGen.refl]

/-- A child of what is on the stack is new. -/
theorem Walking.child_new {visited stack : List α} {current x : α} (hforest : Forest children)
    (h : Walking children root visited (current :: stack)) (hx : x ∈ children current) :
    x ∉ visited ++ current :: stack := by
  intro hmem
  rcases h.parent x hmem with rfl | ⟨a, ha, hchild⟩
  · have hdown := h.below current (by simp)
    exact hforest.acyclic current (Relation.TransGen.head' hx hdown)
  · obtain rfl := hforest.one_parent hx hchild
    have hdisjoint := List.disjoint_of_nodup_append h.nodup
    exact hdisjoint ha List.mem_cons_self

theorem Walking.step {visited stack : List α} {current : α} (hforest : Forest children)
    (h : Walking children root visited (current :: stack)) :
    Walking children root (visited ++ [current]) (children current ++ stack) := by
  have hmem : ∀ x, x ∈ visited ++ [current] ++ (children current ++ stack) ↔
      x ∈ visited ++ current :: stack ∨ x ∈ children current := by
    intro x
    simp only [List.mem_append, List.mem_cons, List.not_mem_nil, or_false]
    tauto
  refine ⟨?_, ?_, ?_, ?_, (hmem root).mpr (.inl h.root_mem)⟩
  · have hperm : (visited ++ [current] ++ (children current ++ stack)).Perm
        (children current ++ (visited ++ current :: stack)) := by
      have hswap := List.perm_append_comm_assoc (visited ++ [current]) (children current) stack
      rwa [List.append_assoc visited [current] stack, List.singleton_append] at hswap
    rw [hperm.nodup_iff, List.nodup_append]
    refine ⟨hforest.nodup current, h.nodup, ?_⟩
    rintro x hx y hy rfl
    exact h.child_new hforest hx hy
  · intro x hx
    rcases (hmem x).mp hx with hx | hx
    · exact h.below x hx
    · exact (h.below current (by simp)).tail hx
  · intro a ha x hx
    rcases List.mem_append.mp ha with ha | ha
    · exact (hmem x).mpr (.inl (h.closed a ha x hx))
    · obtain rfl := List.mem_singleton.mp ha
      exact (hmem x).mpr (.inr hx)
  · intro x hx
    rcases (hmem x).mp hx with hx | hx
    · rcases h.parent x hx with hroot | ⟨a, ha, hchild⟩
      · exact .inl hroot
      · exact .inr ⟨a, List.mem_append_left _ ha, hchild⟩
    · exact .inr ⟨current, by simp, hx⟩

/-- A walk that has ended has found what is below the root. -/
theorem Walking.ended {visited : List α} (h : Walking children root visited []) (x : α) :
    x ∈ visited ↔ Below children root x := by
  have hall : visited ++ [] = visited := List.append_nil visited
  constructor
  · intro hx
    exact h.below x (by rwa [hall])
  · intro hx
    induction hx with
    | refl => exact hall ▸ h.root_mem
    | tail _ hchild ih => exact hall ▸ h.closed _ ih _ hchild

/-- With as many visits left as there are nodes to visit, the walk runs to its end. -/
theorem Walking.run (hforest : Forest children) {nodes : List α}
    (hnodes : ∀ x, Below children root x → x ∈ nodes) {visits : Nat} {visited stack : List α}
    (h : Walking children root visited stack) (henough : nodes.length ≤ visited.length + visits) :
    Walking children root (visited ++ walk children visits stack) [] := by
  induction visits generalizing visited stack with
  | zero =>
    have hsub : visited ++ stack ⊆ nodes := fun x hx => hnodes x (h.below x hx)
    have hlength := (List.subperm_of_subset h.nodup hsub).length_le
    rw [List.length_append] at hlength
    have hempty : stack = [] := List.length_eq_zero_iff.mp (by omega)
    subst hempty
    simpa [walk] using h
  | succ visits ih =>
    cases stack with
    | nil => simpa [walk] using h
    | cons current stack =>
      have hrun :=
        ih (h.step hforest) (by simp only [List.length_append, List.length_singleton]; omega)
      rwa [List.append_assoc, List.singleton_append] at hrun

/-- The walk finds what is below its root, once each. -/
theorem walk_spec (hforest : Forest children) {nodes : List α}
    (hnodes : ∀ x, Below children root x → x ∈ nodes) {visits : Nat}
    (henough : nodes.length ≤ visits) :
    (walk children visits [root]).Nodup ∧
      ∀ x, x ∈ walk children visits [root] ↔ Below children root x := by
  have hrun : Walking children root ([] ++ walk children visits [root]) [] :=
    walking_start.run hforest hnodes (by simpa using henough)
  rw [List.nil_append] at hrun
  refine ⟨?_, hrun.ended⟩
  have hnodup := hrun.nodup
  rwa [List.append_nil] at hnodup

end

end Lib
