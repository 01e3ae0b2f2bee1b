import Mathlib.Data.List.Nodup
import Mathlib.Order.Lattice

/-! # Sorted tables

    A `Table key` is a finite map whose rows carry their own key: a list of
    rows, strictly ascending in `key`.  It plays the role of an ordered
    associative container indexed by one of the value's own fields, so
    "every row is stored under its own key" holds by construction and
    iteration order is the order of the keys.

    Nothing in this file is specific to one program: it is generic in the
    row type, the key type and the key function.
-/

namespace Lib

universe u v

/-- A finite map with rows `ν`, sorted by `key`. -/
structure Table {κ : Type u} {ν : Type v} [LinearOrder κ] (key : ν → κ) where
  rows : List ν
  sorted : rows.Pairwise (fun a b => key a < key b)

namespace Table

variable {κ : Type u} {ν : Type v} [LinearOrder κ] {key : ν → κ}

/-! ## Operations -/

/-- The table without rows. -/
def empty : Table key := ⟨[], List.Pairwise.nil⟩

instance : Inhabited (Table key) := ⟨empty⟩

/-- The row stored under `k`, if any. -/
def find (t : Table key) (k : κ) : Option ν := t.rows.find? (fun v => key v = k)

/-- Number of rows. -/
def size (t : Table key) : Nat := t.rows.length

/-- Insert a row into a sorted list, replacing the row with the same key. -/
def insertRow (key : ν → κ) (v : ν) : List ν → List ν
  | [] => [v]
  | r :: rs =>
      if key v < key r then v :: r :: rs
      else if key v = key r then v :: rs
      else r :: insertRow key v rs

theorem mem_insertRow {v x : ν} : ∀ {rs : List ν},
    x ∈ insertRow key v rs → x = v ∨ x ∈ rs
  | [], h => by simpa [insertRow] using h
  | r :: rs, h => by
      unfold insertRow at h
      split at h
      · simpa using h
      · split at h
        · rcases List.mem_cons.mp h with h | h
          · exact .inl h
          · exact .inr (List.mem_cons_of_mem _ h)
        · rcases List.mem_cons.mp h with h | h
          · exact .inr (h ▸ List.mem_cons_self)
          · exact (mem_insertRow h).imp_right (List.mem_cons_of_mem _)

theorem insertRow_sorted {v : ν} : ∀ {rs : List ν},
    rs.Pairwise (fun a b => key a < key b) →
    (insertRow key v rs).Pairwise (fun a b => key a < key b)
  | [], _ => by simp [insertRow]
  | r :: rs, h => by
      obtain ⟨hr, hrs⟩ := List.pairwise_cons.mp h
      unfold insertRow
      split
      · next hlt =>
        refine List.pairwise_cons.mpr ⟨?_, h⟩
        intro x hx
        rcases List.mem_cons.mp hx with rfl | hx
        · exact hlt
        · exact lt_trans hlt (hr x hx)
      · split
        · next heq => exact List.pairwise_cons.mpr ⟨fun x hx => heq ▸ hr x hx, hrs⟩
        · next hnlt hne =>
          refine List.pairwise_cons.mpr ⟨?_, insertRow_sorted hrs⟩
          intro x hx
          rcases mem_insertRow hx with rfl | hx
          · exact lt_of_le_of_ne (not_lt.mp hnlt) (Ne.symm hne)
          · exact hr x hx

/-- Insert a row, or replace the row stored under its key. -/
def put (t : Table key) (v : ν) : Table key :=
  ⟨insertRow key v t.rows, insertRow_sorted t.sorted⟩

/-- Keep the rows that satisfy `p`. -/
def filter (t : Table key) (p : ν → Bool) : Table key :=
  ⟨t.rows.filter p, t.sorted.filter p⟩

/-- Drop the row stored under `k`. -/
def erase (t : Table key) (k : κ) : Table key := t.filter (fun v => key v ≠ k)

/-- Transform every row without moving it: the image keeps the row's key. -/
def mapRows {ν' : Type*} {key' : ν' → κ} (t : Table key) (f : ν → ν')
    (h : ∀ v, key' (f v) = key v) :
    Table key' :=
  ⟨t.rows.map f, List.pairwise_map.mpr (t.sorted.imp (fun hab => by rw [h, h]; exact hab))⟩

/-! ## Lookup -/

theorem key_of_find {t : Table key} {k : κ} {v : ν} (h : t.find k = some v) : key v = k := by
  simpa using List.find?_some h

theorem mem_of_find {t : Table key} {k : κ} {v : ν} (h : t.find k = some v) : v ∈ t.rows :=
  List.mem_of_find?_eq_some h

theorem eq_of_mem_of_key_eq {t : Table key} {a b : ν} (ha : a ∈ t.rows) (hb : b ∈ t.rows)
    (h : key a = key b) : a = b := by
  have hp : t.rows.Pairwise (fun a b => key a ≠ key b) := t.sorted.imp (fun h => h.ne)
  exact List.inj_on_of_nodup_map (List.pairwise_map.mpr hp) ha hb h

/-- Lookup finds exactly the rows of the table. -/
theorem find_iff_mem {t : Table key} {v : ν} : t.find (key v) = some v ↔ v ∈ t.rows := by
  constructor
  · exact mem_of_find
  · intro hv
    cases h : t.find (key v) with
    | none => simpa using List.find?_eq_none.mp h v hv
    | some w => rw [eq_of_mem_of_key_eq (mem_of_find h) hv (key_of_find h)]

theorem find_eq_some_iff {t : Table key} {k : κ} {v : ν} :
    t.find k = some v ↔ v ∈ t.rows ∧ key v = k := by
  constructor
  · exact fun h => ⟨mem_of_find h, key_of_find h⟩
  · rintro ⟨hv, rfl⟩; exact find_iff_mem.mpr hv

@[simp] theorem find_empty (k : κ) : (empty : Table key).find k = none := rfl

theorem find?_insertRow (v : ν) (k : κ) : ∀ rs : List ν,
    (insertRow key v rs).find? (fun x => key x = k) =
      if key v = k then some v else rs.find? (fun x => key x = k)
  | [] => by by_cases h : key v = k <;> simp [insertRow, h]
  | r :: rs => by
      have ih := find?_insertRow v k rs
      unfold insertRow
      split
      · by_cases h : key v = k <;> simp [h]
      · split
        · next heq =>
          by_cases h : key v = k
          · simp [h]
          · have hr : key r ≠ k := heq ▸ h
            simp [h, hr]
        · next hne =>
          by_cases hr : key r = k
          · have hv : key v ≠ k := hr ▸ hne
            simp [hr, hv]
          · simp [hr, ih]

theorem find_put (t : Table key) (v : ν) (k : κ) :
    (t.put v).find k = if key v = k then some v else t.find k :=
  find?_insertRow v k t.rows

@[simp] theorem find_put_self (t : Table key) (v : ν) : (t.put v).find (key v) = some v := by
  simp [find_put]

theorem nodup_rows (t : Table key) : t.rows.Nodup :=
  t.sorted.imp (fun h heq => absurd (heq ▸ h) (lt_irrefl _))

theorem nodup_keys (t : Table key) : (t.rows.map key).Nodup :=
  List.pairwise_map.mpr (t.sorted.imp (fun h => ne_of_lt h))

theorem find_put_of_ne (t : Table key) {v : ν} {k : κ} (h : key v ≠ k) :
    (t.put v).find k = t.find k := by
  simp [find_put, h]

theorem mem_put {t : Table key} {v x : ν} :
    x ∈ (t.put v).rows ↔ x = v ∨ (x ∈ t.rows ∧ key x ≠ key v) := by
  rw [← find_iff_mem, find_put]
  by_cases h : key v = key x
  · simp only [h, if_true, Option.some.injEq, ne_eq, not_true, and_false, or_false]
    exact eq_comm
  · have hx : x ≠ v := fun e => h (e ▸ rfl)
    simp [h, hx, find_iff_mem, Ne.symm h]

@[simp] theorem mem_filter {t : Table key} {p : ν → Bool} {x : ν} :
    x ∈ (t.filter p).rows ↔ x ∈ t.rows ∧ p x = true := by
  simp [filter]

theorem find_filter (t : Table key) (p : ν → Bool) (k : κ) :
    (t.filter p).find k = (t.find k).filter p := by
  cases h : t.find k with
  | none =>
    refine List.find?_eq_none.mpr fun x hx => ?_
    exact List.find?_eq_none.mp h x (List.mem_of_mem_filter hx)
  | some v =>
    obtain ⟨hv, rfl⟩ := find_eq_some_iff.mp h
    cases hp : p v with
    | true => simp [Option.filter, hp, find_iff_mem, hv]
    | false =>
      simp only [Option.filter, hp]
      refine List.find?_eq_none.mpr fun x hx => ?_
      obtain ⟨hx, hpx⟩ := mem_filter.mp hx
      simp only [decide_eq_true_eq]
      intro hk
      rw [eq_of_mem_of_key_eq hx hv hk, hp] at hpx
      cases hpx

theorem find_mapRows {ν' : Type*} {key' : ν' → κ} (t : Table key) (f : ν → ν')
    (h : ∀ v, key' (f v) = key v) (k : κ) : (t.mapRows f h).find k = (t.find k).map f := by
  unfold find mapRows
  rw [List.find?_map]
  simp only [Function.comp_def, h]

theorem mem_erase {t : Table key} {k : κ} {x : ν} :
    x ∈ (t.erase k).rows ↔ x ∈ t.rows ∧ key x ≠ k := by
  simp [erase]

theorem find_erase (t : Table key) (k k' : κ) :
    (t.erase k).find k' = if k = k' then none else t.find k' := by
  unfold erase
  rw [find_filter]
  cases h : t.find k' with
  | none => simp
  | some v =>
    have hv := key_of_find h
    by_cases hk : k = k'
    · simp [Option.filter, hv, hk]
    · simp [Option.filter, hv, hk, Ne.symm hk]

/-! ## Extensionality and repeated insertion -/

/-- Tables with the same lookups are the same table. -/
theorem ext_find {t t' : Table key} (h : ∀ k, t.find k = t'.find k) : t = t' := by
  have hmem : ∀ x, x ∈ t.rows ↔ x ∈ t'.rows := by
    intro x
    rw [← find_iff_mem, ← find_iff_mem, h]
  have hn : ∀ u : Table key, u.rows.Nodup := by
    intro u
    exact u.sorted.imp (fun hab e => hab.ne (congrArg key e))
  have hperm : t.rows.Perm t'.rows := (List.perm_ext_iff_of_nodup (hn t) (hn t')).mpr hmem
  have hrows : t.rows = t'.rows := by
    refine hperm.eq_of_pairwise ?_ t.sorted t'.sorted
    intro a b _ _ hab hba
    exact absurd hab hba.asymm
  cases t
  cases t'
  simp_all

/-- The second of two rows with one key stays. -/
theorem put_put {t : Table key} {v w : ν} (h : key v = key w) : (t.put v).put w = t.put w := by
  apply ext_find
  intro k
  rw [find_put, find_put, find_put, h]
  by_cases hk : key w = k
  · simp [hk]
  · simp [hk]

/-- A row under a new key, and then dropped again. -/
theorem erase_put {t : Table key} {v : ν} (h : t.find (key v) = none) :
    (t.put v).erase (key v) = t := by
  apply ext_find
  intro k
  rw [find_erase, find_put]
  by_cases hk : key v = k
  · rw [if_pos hk, ← hk, h]
  · rw [if_neg hk, if_neg hk]

/-- Putting a row that is already there changes nothing. -/
theorem put_of_mem {t : Table key} {v : ν} (h : v ∈ t.rows) : t.put v = t := by
  apply ext_find
  intro k
  rw [find_put]
  split
  · next hk => rw [← hk, find_iff_mem.mpr h]
  · rfl

/-- After a sequence of insertions the last row with the key wins. -/
theorem find_foldl_put (l : List ν) (t : Table key) (k : κ) :
    (l.foldl put t).find k = (l.reverse.find? (fun v => key v = k)).or (t.find k) := by
  induction l generalizing t with
  | nil => simp
  | cons v l ih =>
    rw [List.foldl_cons, ih, find_put, List.reverse_cons, List.find?_append]
    cases l.reverse.find? (fun v => key v = k) with
    | some w => simp
    | none =>
      by_cases hk : key v = k
      · simp [hk]
      · simp [hk]

/-- A sequence of insertions settles the keys it mentions and leaves the others alone. -/
theorem find_foldl_put_cases (l : List ν) (t : Table key) (k : κ) :
    (∃ v ∈ l, key v = k ∧ (l.foldl put t).find k = some v) ∨
      (∀ v ∈ l, key v ≠ k) ∧ (l.foldl put t).find k = t.find k := by
  rw [find_foldl_put]
  cases h : l.reverse.find? (fun v => key v = k) with
  | some v =>
    exact .inl ⟨v, by simpa using List.mem_of_find?_eq_some h, by simpa using List.find?_some h,
      rfl⟩
  | none =>
    refine .inr ⟨?_, rfl⟩
    intro v hv
    simpa using List.find?_eq_none.mp h v (by simpa using hv)

/-- Only the keys a sequence of insertions does not mention depend on where it started. -/
theorem foldl_put_base {l : List ν} {t t' : Table key}
    (h : ∀ k, (∀ v ∈ l, key v ≠ k) → t.find k = t'.find k) : l.foldl put t = l.foldl put t' := by
  apply ext_find
  intro k
  rw [find_foldl_put, find_foldl_put]
  cases hk : l.reverse.find? (fun v => key v = k) with
  | some v => rfl
  | none =>
    simp only [Option.none_or]
    apply h
    intro v hv
    simpa using List.find?_eq_none.mp hk v (by simpa using hv)

/-- Inserting the rows of a table in any order rebuilds it. -/
theorem foldl_put_perm {t : Table key} {l : List ν} (h : l.Perm t.rows) :
    l.foldl put empty = t := by
  apply ext_find
  intro k
  rcases find_foldl_put_cases l empty k with ⟨v, hv, hk, hfind⟩ | ⟨hnone, hfind⟩
  · rw [hfind, ← hk, find_iff_mem.mpr (h.mem_iff.mp hv)]
  · rw [hfind, find_empty]
    symm
    apply List.find?_eq_none.mpr
    intro v hv
    simpa using hnone v (h.mem_iff.mpr hv)

theorem foldl_put_rows (t : Table key) : t.rows.foldl put empty = t :=
  foldl_put_perm (List.Perm.refl _)

theorem foldl_put_of_subset {t : Table key} {l : List ν} (h : ∀ v ∈ l, v ∈ t.rows) :
    l.foldl put t = t := by
  induction l with
  | nil => rfl
  | cons v l ih =>
    rw [List.foldl_cons, put_of_mem (h v List.mem_cons_self)]
    exact ih (fun w hw => h w (List.mem_cons_of_mem _ hw))

/-- Up to order, inserting a row adds it to the rows with other keys. -/
theorem put_perm (t : Table key) (v : ν) : (t.put v).rows.Perm (v :: (t.erase (key v)).rows) := by
  have hnodup : (v :: (t.erase (key v)).rows).Nodup := by
    refine List.nodup_cons.mpr ⟨?_, (t.erase (key v)).nodup_rows⟩
    intro h
    exact (mem_erase.mp h).2 rfl
  refine (List.perm_ext_iff_of_nodup (t.put v).nodup_rows hnodup).mpr ?_
  intro x
  rw [mem_put, List.mem_cons, mem_erase]

theorem size_put_le (t : Table key) (v : ν) : (t.put v).size ≤ t.size + 1 := by
  have hlen := (t.put_perm v).length_eq
  have herase : (t.erase (key v)).rows.length ≤ t.rows.length := List.length_filter_le _ _
  simp only [size, List.length_cons] at hlen ⊢
  omega

/-- Up to order, the rows are one row and those with other keys. -/
theorem rows_perm {t : Table key} {k : κ} {v : ν} (h : t.find k = some v) :
    t.rows.Perm (v :: (t.erase k).rows) := by
  have hkey : key v = k := key_of_find h
  have hput := t.put_perm v
  rw [put_of_mem (mem_of_find h), hkey] at hput
  exact hput

theorem erase_of_find_none {t : Table key} {k : κ} (h : t.find k = none) : t.erase k = t := by
  apply ext_find
  intro k'
  rw [find_erase]
  by_cases hk : k = k'
  · rw [if_pos hk, ← hk, h]
  · rw [if_neg hk]

/-- Dropping several keys, one after the other. -/
theorem find_foldl_erase (ks : List κ) (t : Table key) (k : κ) :
    (ks.foldl erase t).find k = if k ∈ ks then none else t.find k := by
  induction ks generalizing t with
  | nil => simp
  | cons k' ks ih =>
    rw [List.foldl_cons, ih, find_erase]
    by_cases hk : k ∈ ks
    · simp [hk]
    · by_cases hk' : k' = k
      · simp [hk']
      · simp [hk, hk', Ne.symm hk']

/-- Dropping the keys of the rows with a property keeps the others. -/
theorem foldl_erase_filter (t : Table key) (p : ν → Bool) :
    ((t.rows.filter p).map key).foldl erase t = t.filter (fun v => !p v) := by
  apply ext_find
  intro k
  rw [find_foldl_erase, find_filter]
  cases hfind : t.find k with
  | none => simp
  | some v =>
    obtain ⟨hv, rfl⟩ := find_eq_some_iff.mp hfind
    have hmem : key v ∈ (t.rows.filter p).map key ↔ p v = true := by
      constructor
      · intro h
        obtain ⟨w, hw, hkey⟩ := List.mem_map.mp h
        obtain ⟨hw, hp⟩ := List.mem_filter.mp hw
        rwa [← eq_of_mem_of_key_eq hw hv hkey]
      · intro h
        exact List.mem_map_of_mem (List.mem_filter.mpr ⟨hv, h⟩)
    by_cases hp : p v = true
    · simp [hmem, hp, Option.filter]
    · simp [hmem, hp, Option.filter]

theorem size_put_of_find_none {t : Table key} {v : ν} (h : t.find (key v) = none) :
    (t.put v).size = t.size + 1 := by
  have hlen := (t.put_perm v).length_eq
  rw [erase_of_find_none h] at hlen
  exact hlen

end Table

end Lib
