import Mathlib.Data.List.Basic

/-! # Runs

    Runs of a deterministic system whose inputs are a list of events.  A claim
    about a run may depend on what every step finds: `Along` states a condition
    on each step, in the state the step starts from, and the rules below turn
    what one step preserves into what the run preserves.
-/

namespace Lib

variable {σ ε : Type} {step : σ → ε → σ} {C D : σ → ε → Prop}

/-- Every step of the run meets the condition in the state it starts from. -/
def Along (step : σ → ε → σ) (C : σ → ε → Prop) : σ → List ε → Prop
  | _, [] => True
  | s, e :: es => C s e ∧ Along step C (step s e) es

namespace Along

/-- Conditions that can be evaluated can be evaluated along a run. -/
instance decidable [∀ s e, Decidable (C s e)] :
    ∀ (s : σ) (es : List ε), Decidable (Along step C s es)
  | _, [] => isTrue trivial
  | s, e :: es => @instDecidableAnd _ _ _ (decidable (step s e) es)

theorem append {es es' : List ε} {s : σ} :
    Along step C s (es ++ es') ↔ Along step C s es ∧ Along step C (es.foldl step s) es' := by
  induction es generalizing s with
  | nil => simp [Along]
  | cons e es ih => simp [Along, ih, and_assoc]

theorem of_forall (h : ∀ s e, C s e) (es : List ε) (s : σ) : Along step C s es := by
  induction es generalizing s with
  | nil => trivial
  | cons e es ih => exact ⟨h s e, ih _⟩

/-- A condition on the inputs alone. -/
theorem of_mem {I : ε → Prop} {es : List ε} (h : ∀ e ∈ es, I e) (s : σ) :
    Along step (fun _ e => I e) s es := by
  induction es generalizing s with
  | nil => trivial
  | cons e es ih =>
    exact ⟨h e List.mem_cons_self, ih (fun e' he' => h e' (List.mem_cons_of_mem _ he')) _⟩

/-- The condition, at every place of the run. -/
theorem iff_forall {es : List ε} {s : σ} :
    Along step C s es ↔ ∀ mid e rest, es = mid ++ e :: rest → C (mid.foldl step s) e := by
  constructor
  · intro h mid e rest hsplit
    rw [hsplit] at h
    exact (append.mp h).2.1
  · intro h
    induction es generalizing s with
    | nil => trivial
    | cons e es ih =>
      refine ⟨h [] e es rfl, ih ?_⟩
      intro mid x rest hsplit
      exact h (e :: mid) x rest (by rw [hsplit]; rfl)

/-- An invariant of the steps that meet the condition is an invariant of the run. -/
theorem invariant {I : σ → Prop} (hstep : ∀ s e, C s e → I s → I (step s e)) {es : List ε} {s : σ}
    (h : Along step C s es) (hs : I s) : I (es.foldl step s) := by
  induction es generalizing s with
  | nil => exact hs
  | cons e es ih => exact ih h.2 (hstep s e h.1 hs)

end Along

/-- An invariant of every step is an invariant of every run. -/
theorem run_invariant {I : σ → Prop} (hstep : ∀ s e, I s → I (step s e)) (es : List ε) {s : σ}
    (hs : I s) : I (es.foldl step s) :=
  (Along.of_forall (C := fun _ _ => True) (fun _ _ => trivial) es s).invariant
    (fun s e _ => hstep s e) hs

end Lib
