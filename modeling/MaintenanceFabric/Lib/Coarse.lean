import Mathlib.Data.List.Basic

/-! # Coarse steps

    A program may do in one step what a finer system does in several.  It
    refines the finer system when each of its steps is a run of fine ones
    from which an observer learns the same.  `Leads` is such a run with what
    the observer sees of it, and runs of the program are then runs of the
    system that look alike.
-/

namespace Lib

variable {σ ε β : Type} {step : σ → ε → σ} {sees : ε → Option β} {s s' s'' : σ}
  {seen seen' : List β}

/-- Some run leads from one state to the other, and an observer sees this much of it. -/
def Leads (step : σ → ε → σ) (sees : ε → Option β) (s : σ) (seen : List β) (s' : σ) : Prop :=
  ∃ es : List ε, es.filterMap sees = seen ∧ es.foldl step s = s'

namespace Leads

theorem refl (s : σ) : Leads step sees s [] s := ⟨[], rfl, rfl⟩

theorem trans (h : Leads step sees s seen s') (h' : Leads step sees s' seen' s'') :
    Leads step sees s (seen ++ seen') s'' := by
  obtain ⟨es, hseen, hrun⟩ := h
  obtain ⟨es', hseen', hrun'⟩ := h'
  refine ⟨es ++ es', ?_, ?_⟩
  · rw [List.filterMap_append, hseen, hseen']
  · rw [List.foldl_append, hrun, hrun']

/-- A step that the observer sees. -/
theorem shown {e : ε} {b : β} (h : sees e = some b) : Leads step sees s [b] (step s e) :=
  ⟨[e], by simp [h], rfl⟩

/-- A step that the observer does not see. -/
theorem hidden {e : ε} (h : sees e = none) : Leads step sees s [] (step s e) :=
  ⟨[e], by simp [h], rfl⟩

/-- Unseen runs can be put one after the other. -/
theorem then_hidden (h : Leads step sees s [] s') (h' : Leads step sees s' [] s'') :
    Leads step sees s [] s'' := h.trans h'

/-- When every coarse step is a run that looks like it, so is every run of coarse steps. -/
theorem runs {τ ω : Type} {coarse : τ → ω → τ} {sees' : ω → Option β} {view : τ → σ}
    (hstep : ∀ t o, Leads step sees (view t) (sees' o).toList (view (coarse t o))) (os : List ω)
    (t : τ) : Leads step sees (view t) (os.filterMap sees') (view (os.foldl coarse t)) := by
  induction os generalizing t with
  | nil => exact refl _
  | cons o os ih =>
    have hrest := (hstep t o).trans (ih (coarse t o))
    rw [List.foldl_cons, List.filterMap_cons]
    cases hsees : sees' o with
    | none => simpa [hsees] using hrest
    | some b => simpa [hsees] using hrest

end Leads

end Lib
