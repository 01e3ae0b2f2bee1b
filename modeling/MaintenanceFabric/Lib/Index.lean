import Mathlib.Data.List.Sort
import Mathlib.Logic.Function.Basic

/-! # Reverse indexes

    An index lists for every key the values that refer to it, ascending and
    once each.  When one value changes what it refers to, its old entries go
    and its new ones come; every other entry stays.
-/

namespace Lib

variable {ι α : Type*}

/-- The index lists exactly what refers to each key. -/
structure Indexes [LT α] (index : ι → List α) (refers : α → ι → Prop) : Prop where
  ascending : ∀ i, (index i).Pairwise (· < ·)
  mem : ∀ i a, a ∈ index i ↔ refers a i

namespace Indexes

theorem empty [LT α] {refers : α → ι → Prop} (h : ∀ a i, ¬ refers a i) :
    Indexes (fun _ => []) refers := by
  refine ⟨fun _ => .nil, ?_⟩
  intro i a
  simp [h a i]

/-- One value's references are replaced. -/
theorem replace [LT α] {index index' : ι → List α} {refers refers' : α → ι → Prop}
    (h : Indexes index refers) {a : α} (hascending : ∀ i, (index' i).Pairwise (· < ·))
    (hmem : ∀ i x, x ∈ index' i ↔ (x ∈ index i ∧ x ≠ a) ∨ (x = a ∧ refers' a i))
    (hothers : ∀ x i, x ≠ a → (refers' x i ↔ refers x i)) : Indexes index' refers' := by
  refine ⟨hascending, ?_⟩
  intro i x
  rw [hmem, h.mem]
  by_cases hx : x = a
  · rw [hx]
    simp
  · rw [hothers x i hx]
    simp [hx]

end Indexes

/-! ## Patching -/

/-- Rewrite the entries of some keys, one after the other. -/
def at_each {β : Type*} [DecidableEq ι] (f : β → β) (keys : List ι) (index : ι → β) : ι → β :=
  keys.foldl (fun index k => Function.update index k (f (index k))) index

/-- A rewriting that changes nothing the second time does the same for a key that is repeated. -/
theorem at_each_apply {β : Type*} [DecidableEq ι] {f : β → β} (hf : ∀ b, f (f b) = f b)
    (keys : List ι) (index : ι → β) (i : ι) :
    at_each f keys index i = if i ∈ keys then f (index i) else index i := by
  unfold at_each
  induction keys generalizing index with
  | nil => simp
  | cons k keys ih =>
    rw [List.foldl_cons, ih]
    by_cases hk : i = k
    · rw [hk, Function.update_self, hf]
      simp
    · rw [Function.update_of_ne hk]
      simp [hk]

end Lib
