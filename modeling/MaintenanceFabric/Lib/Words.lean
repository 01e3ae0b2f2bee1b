import Mathlib.Data.List.Basic
import Mathlib.Data.List.Infix

/-! # Words

    A sequence with separators in it read as the words between them.  Words
    that are joined by a separator are read back, and what is read never holds
    a separator.
-/

namespace Lib

variable {α : Type} {sep : α → Bool}

/-- The non-empty pieces between separators. -/
def words (sep : α → Bool) (l : List α) : List (List α) :=
  (l.splitOnP sep).filter (fun w => !w.isEmpty)

/-- A word: not empty, and without separators. -/
def Solid (sep : α → Bool) (w : List α) : Prop := w ≠ [] ∧ ∀ a ∈ w, sep a = false

instance [DecidableEq α] (w : List α) : Decidable (Solid sep w) :=
  inferInstanceAs (Decidable (_ ∧ _))

namespace Solid

theorem append {v w : List α} (hv : Solid sep v) (hw : Solid sep w) : Solid sep (v ++ w) := by
  refine ⟨by simp [hv.1], ?_⟩
  intro a ha
  rcases List.mem_append.mp ha with ha | ha
  · exact hv.2 a ha
  · exact hw.2 a ha

theorem cons {a : α} {w : List α} (ha : sep a = false) (hw : Solid sep w) : Solid sep (a :: w) := by
  refine ⟨by simp, ?_⟩
  intro b hb
  rcases List.mem_cons.mp hb with rfl | hb
  · exact ha
  · exact hw.2 b hb

/-- A non-empty part of a word is a word. -/
theorem of_sublist {v w : List α} (hw : Solid sep w) (hne : v ≠ []) (hsub : ∀ a ∈ v, a ∈ w) :
    Solid sep v := ⟨hne, fun a ha => hw.2 a (hsub a ha)⟩

end Solid

/-- The pieces of a split hold no separator, and nothing that was not there. -/
theorem mem_splitOnP {l w : List α} (h : w ∈ l.splitOnP sep) :
    ∀ a ∈ w, sep a = false ∧ a ∈ l := by
  induction l generalizing w with
  | nil =>
    rw [List.splitOnP_nil, List.mem_singleton] at h
    subst h
    simp
  | cons x l ih =>
    rw [List.splitOnP_cons_eq_if_modifyHead] at h
    by_cases hx : sep x = true
    · rw [if_pos hx] at h
      rcases List.mem_cons.mp h with rfl | h
      · simp
      · intro a ha
        obtain ⟨hsep, hmem⟩ := ih h a ha
        exact ⟨hsep, List.mem_cons_of_mem _ hmem⟩
    · rw [if_neg hx] at h
      -- The first piece grows by a letter, the others stay.
      obtain ⟨v, vs, hsplit⟩ := List.exists_cons_of_ne_nil (List.splitOnP_ne_nil sep l)
      rw [hsplit, List.modifyHead_cons] at h
      intro a ha
      rcases List.mem_cons.mp h with rfl | h
      · rcases List.mem_cons.mp ha with rfl | ha
        · exact ⟨by simpa using hx, List.mem_cons_self⟩
        · obtain ⟨hsep, hmem⟩ := ih (by rw [hsplit]; exact List.mem_cons_self) a ha
          exact ⟨hsep, List.mem_cons_of_mem _ hmem⟩
      · obtain ⟨hsep, hmem⟩ := ih (by rw [hsplit]; exact List.mem_cons_of_mem _ h) a ha
        exact ⟨hsep, List.mem_cons_of_mem _ hmem⟩

theorem solid_of_mem_words {l w : List α} (h : w ∈ words sep l) :
    Solid sep w ∧ ∀ a ∈ w, a ∈ l := by
  simp only [words, List.mem_filter, Bool.not_eq_true', List.isEmpty_eq_false_iff] at h
  exact ⟨⟨h.2, fun a ha => (mem_splitOnP h.1 a ha).1⟩, fun a ha => (mem_splitOnP h.1 a ha).2⟩

theorem words_of_solid {w : List α} (h : Solid sep w) : words sep w = [w] := by
  rw [words, List.splitOnP_eq_singleton h.2]
  simp [h.1]

theorem words_append_cons {a : α} (ha : sep a = true) (l r : List α) :
    words sep (l ++ a :: r) = words sep l ++ words sep r := by
  rw [words, List.splitOnP_append_cons l r ha, List.filter_append]
  rfl

/-- Words joined by a separator are read back. -/
theorem words_intercalate {a : α} (ha : sep a = true) {ws : List (List α)}
    (h : ∀ w ∈ ws, Solid sep w) : words sep ([a].intercalate ws) = ws := by
  induction ws with
  | nil => rfl
  | cons w ws ih =>
    have hw := h w List.mem_cons_self
    have hrest : ∀ v ∈ ws, Solid sep v := by
      intro v hv
      exact h v (List.mem_cons_of_mem _ hv)
    cases ws with
    | nil => simpa using words_of_solid hw
    | cons v vs =>
      rw [List.intercalate_cons_cons, List.append_assoc, List.singleton_append,
        words_append_cons ha, words_of_solid hw, ih hrest]
      rfl

/-! ## Ends -/

/-- Without the separators at both ends. -/
def strip (sep : α → Bool) (l : List α) : List α :=
  ((l.dropWhile sep).reverse.dropWhile sep).reverse

theorem mem_strip {l : List α} {a : α} (h : a ∈ strip sep l) : a ∈ l := by
  simp only [strip, List.mem_reverse] at h
  have hback := (List.dropWhile_sublist sep).subset h
  exact (List.dropWhile_sublist sep).subset (List.mem_reverse.mp hback)

/-- A sequence that begins and ends with a letter is not stripped. -/
theorem strip_of_ends {l : List α} (hfirst : ∀ a ∈ l.head?, sep a = false)
    (hlast : ∀ a ∈ l.getLast?, sep a = false) : strip sep l = l := by
  have hdrop : ∀ m : List α, (∀ a ∈ m.head?, sep a = false) → m.dropWhile sep = m := by
    intro m hm
    cases m with
    | nil => rfl
    | cons b m => simp [List.dropWhile, hm b rfl]
  rw [strip, hdrop l hfirst, hdrop l.reverse, List.reverse_reverse]
  intro a ha
  rw [List.head?_reverse] at ha
  exact hlast a ha

theorem mem_intercalate {a b : α} {ws : List (List α)} (h : b ∈ [a].intercalate ws) :
    b = a ∨ ∃ w ∈ ws, b ∈ w := by
  induction ws with
  | nil => cases h
  | cons w rest ih =>
    cases rest with
    | nil =>
      rw [List.intercalate_singleton] at h
      exact .inr ⟨w, List.mem_cons_self, h⟩
    | cons v vs =>
      rw [List.intercalate_cons_cons, List.append_assoc, List.singleton_append] at h
      rcases List.mem_append.mp h with h | h
      · exact .inr ⟨w, List.mem_cons_self, h⟩
      · rcases List.mem_cons.mp h with rfl | h
        · exact .inl rfl
        · rcases ih h with rfl | ⟨u, hu, hb⟩
          · exact .inl rfl
          · exact .inr ⟨u, List.mem_cons_of_mem _ hu, hb⟩

/-- Joined words begin and end with a letter of a word. -/
theorem ends_intercalate {a : α} {ws : List (List α)} (h : ∀ w ∈ ws, Solid sep w) :
    (∀ b ∈ ([a].intercalate ws).head?, sep b = false) ∧
      ∀ b ∈ ([a].intercalate ws).getLast?, sep b = false := by
  -- The first word gives the front, the last one the end; no word is empty.
  induction ws with
  | nil => simp
  | cons w rest ih =>
    have hw := h w List.mem_cons_self
    obtain ⟨c, cs, hcons⟩ := List.exists_cons_of_ne_nil hw.1
    cases rest with
    | nil =>
      rw [List.intercalate_singleton]
      exact ⟨fun b hb => hw.2 b (List.mem_of_head? hb),
        fun b hb => hw.2 b (List.mem_of_getLast? hb)⟩
    | cons v vs =>
      obtain ⟨hfirst, hlast⟩ := ih (fun x hx => h x (List.mem_cons_of_mem _ hx))
      have hrest : [a].intercalate (v :: vs) ≠ [] := by
        intro hnil
        have hv := (h v (by simp)).1
        cases vs with
        | nil =>
          rw [List.intercalate_singleton] at hnil
          exact hv hnil
        | cons u us =>
          rw [List.intercalate_cons_cons] at hnil
          simp at hnil
      rw [List.intercalate_cons_cons]
      constructor
      · intro b hb
        rw [hcons] at hb
        simp only [List.cons_append, List.head?_cons, Option.mem_some_iff] at hb
        exact hw.2 b (by simp [hcons, hb])
      · intro b hb
        rw [List.getLast?_append_of_ne_nil _ hrest] at hb
        exact hlast b hb

theorem strip_intercalate {a : α} {ws : List (List α)} (h : ∀ w ∈ ws, Solid sep w) :
    strip sep ([a].intercalate ws) = [a].intercalate ws :=
  strip_of_ends (ends_intercalate h).1 (ends_intercalate h).2

end Lib
