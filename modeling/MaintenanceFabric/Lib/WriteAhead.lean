import Mathlib.Data.List.Basic

/-! # Write-ahead logging

    A component keeps its state in memory and a log of entries beside it; after
    a crash it folds the effects of the logged entries over its initial memory.
    A step is `Logged` when it did to the memory exactly what the entries it
    added to the log do; then a log that replays to the memory goes on doing so.
-/

namespace Lib

variable {μ ε : Type} {effect : μ → ε → μ} {P : ε → Prop}

/-- Recovery: the effects of the logged transactions, in order. -/
def replayed (effect : μ → ε → μ) (init : μ) (log : List (List ε)) : μ :=
  log.flatten.foldl effect init

theorem replayed_append (init : μ) (log more : List (List ε)) :
    replayed effect init (log ++ more) = replayed effect (replayed effect init log) more := by
  simp [replayed, List.foldl_append]

/-- A memory and the log that was written beside it. -/
structure Journaled (μ ε : Type) where
  memory : μ
  log : List (List ε)

/-- The step added transactions to the log, each entry within `P`, and changed the memory by
    exactly their effects. -/
def Logged (effect : μ → ε → μ) (P : ε → Prop) (s s' : Journaled μ ε) : Prop :=
  ∃ committed, s'.log = s.log ++ committed ∧ s'.memory = replayed effect s.memory committed ∧
    ∀ entry ∈ committed.flatten, P entry

namespace Logged

/-- A step that wrote nothing and changed nothing. -/
theorem idle {s s' : Journaled μ ε} (hlog : s'.log = s.log) (hmemory : s'.memory = s.memory) :
    Logged effect P s s' :=
  ⟨[], by simp [hlog], by simp [replayed, hmemory], by simp⟩

/-- A step that wrote one transaction. -/
theorem commit {s s' : Journaled μ ε} {entries : List ε} (hlog : s'.log = s.log ++ [entries])
    (hmemory : s'.memory = entries.foldl effect s.memory) (hentries : ∀ entry ∈ entries, P entry) :
    Logged effect P s s' :=
  ⟨[entries], hlog, by simp [replayed, hmemory], by simpa using hentries⟩

end Logged

end Lib
