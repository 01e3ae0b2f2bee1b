import MaintenanceFabric.Lib.Run

/-! # Lockstep

    Two deterministic systems are given the same inputs, and each answers every
    input.  A relation that one step of both keeps is kept by a run of both, so
    what the relation says of one answer carries over to the list of answers.
-/

namespace Lib

variable {σ τ ε α : Type} {step : σ → ε → σ} {step' : τ → ε → τ}

/-- The answers of a run, in order. -/
def answers (step : σ → ε → σ) (answer : σ → ε → α) : σ → List ε → List α
  | _, [] => []
  | s, e :: es => answer s e :: answers step answer (step s e) es

/-- Two systems that stay related answer alike exactly where a condition on the first one's steps
    holds, if that is so of every single step. -/
theorem answers_eq_iff {C : σ → ε → Prop} {answer : σ → ε → α} {answer' : τ → ε → α}
    {R : σ → τ → Prop} {I : ε → Prop}
    (keeps : ∀ s t e, R s t → I e → R (step s e) (step' t e))
    (agree : ∀ s t e, R s t → I e → (answer s e = answer' t e ↔ C s e)) {es : List ε} {s : σ}
    {t : τ} (related : R s t) (inputs : ∀ e ∈ es, I e) :
    answers step answer s es = answers step' answer' t es ↔ Along step C s es := by
  induction es generalizing s t with
  | nil => simp [answers, Along]
  | cons e es ih =>
    have hinput : I e := inputs e (by simp)
    have hrest : ∀ e' ∈ es, I e' := by
      intro e' he'
      exact inputs e' (by simp [he'])
    simp only [answers, Along, List.cons.injEq]
    rw [agree s t e related hinput, ih (keeps s t e related hinput) hrest]

end Lib
