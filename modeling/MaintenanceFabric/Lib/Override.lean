import MaintenanceFabric.Lib.Table
import Mathlib.Data.List.Dedup

/-! # Overriding

    Entries are entered one after the other, and an entry takes the place of
    every earlier one with its key.  What is left in the end are the entries
    that no later one overrides.
-/

namespace Lib

universe u v

variable {κ : Type u} {ν : Type v}

/-- The entry is there, and nothing after it has its key. -/
def Stands (key : ν → κ) (l : List ν) (v : ν) : Prop :=
  ∃ before after, l = before ++ v :: after ∧ ∀ w ∈ after, key w ≠ key v

/-- An entry that stands is the first one with its key from the back. -/
theorem stands_iff_find? [DecidableEq κ] {key : ν → κ} {l : List ν} {v : ν} :
    Stands key l v ↔ l.reverse.find? (fun w => key w = key v) = some v := by
  rw [List.find?_eq_some_iff_append]
  constructor
  · rintro ⟨before, after, rfl, hafter⟩
    refine ⟨by simp, after.reverse, before.reverse, by simp, ?_⟩
    intro w hw
    simpa using hafter w (List.mem_reverse.mp hw)
  · rintro ⟨-, after, before, hl, hafter⟩
    refine ⟨before.reverse, after.reverse, ?_, ?_⟩
    · rw [← List.reverse_reverse l, hl]
      simp
    · intro w hw
      simpa using hafter w (List.mem_reverse.mp hw)

namespace Table

variable [LinearOrder κ] {key : ν → κ}

/-- A table that is filled entry by entry holds the ones that stand. -/
theorem mem_foldl_put {l : List ν} {v : ν} :
    v ∈ (l.foldl put (empty : Table key)).rows ↔ Stands key l v := by
  rw [← find_iff_mem, find_foldl_put, find_empty, Option.or_none, stands_iff_find?]

theorem find_foldl_put_eq_some {l : List ν} {k : κ} {v : ν} :
    (l.foldl put (empty : Table key)).find k = some v ↔ Stands key l v ∧ key v = k := by
  rw [find_eq_some_iff, mem_foldl_put]

theorem find_foldl_put_eq_none {l : List ν} {k : κ} :
    (l.foldl put (empty : Table key)).find k = none ↔ k ∉ l.map key := by
  rw [find_foldl_put, find_empty, Option.or_none, List.find?_eq_none]
  simp

/-- It has one row for each key. -/
theorem size_foldl_put (l : List ν) :
    (l.foldl put (empty : Table key)).size = (l.map key).dedup.length := by
  set t := l.foldl put (empty : Table key) with ht
  have hperm : (t.rows.map key).Perm (l.map key).dedup := by
    refine (List.perm_ext_iff_of_nodup t.nodup_keys (List.nodup_dedup _)).mpr ?_
    intro k
    rw [List.mem_dedup, ← not_iff_not, ← find_foldl_put_eq_none (l := l), ← ht]
    constructor
    · intro h
      refine List.find?_eq_none.mpr fun v hv => ?_
      simp only [decide_eq_true_eq]
      intro hk
      exact h (hk ▸ List.mem_map_of_mem hv)
    · intro h hmem
      obtain ⟨v, hv, hk⟩ := List.mem_map.mp hmem
      have hfind := find_eq_some_iff.mpr ⟨hv, hk⟩
      rw [h] at hfind
      cases hfind
  rw [size, ← List.length_map key, hperm.length_eq]

end Table

end Lib
