import MaintenanceFabric.Engine.Arbitration

/-! # The order of arbitration

    Candidates are decided by tier rank, then creation time, then job
    identity.  Two candidates that agree in all three name one job, so the
    order leaves no choice and the list it starts from does not matter.
-/

namespace MaintenanceFabric

open Lib

/-! ## The order is total -/

def ArbitrationCandidate.place (a : ArbitrationCandidate) : Nat ×ₗ Int ×ₗ JobId :=
  toLex (a.tier_rank, toLex (a.created_at, a.job))

def ArbitrationDecision.place (d : ArbitrationDecision) : Nat ×ₗ Int ×ₗ JobId :=
  toLex (d.tier_rank, toLex (d.created_at, d.job))

theorem candidate_le_iff {a b : ArbitrationCandidate} :
    candidate_le a b = true ↔ a.place ≤ b.place := by
  unfold candidate_le ArbitrationCandidate.place
  rw [Prod.Lex.toLex_le_toLex, Prod.Lex.toLex_le_toLex]
  by_cases hrank : a.tier_rank = b.tier_rank
  · by_cases hcreated : a.created_at = b.created_at
    · simp [hrank, hcreated]
    · simp [hrank, hcreated]
  · simp [hrank]

instance : Std.Total (fun a b : ArbitrationCandidate => candidate_le a b = true) :=
  ⟨fun a b => by
    rw [candidate_le_iff, candidate_le_iff]
    exact le_total _ _⟩

instance : IsTrans ArbitrationCandidate (fun a b => candidate_le a b = true) :=
  ⟨fun a b c hab hbc => by
    rw [candidate_le_iff] at *
    exact hab.trans hbc⟩

namespace ArbitrationContext

variable (c : ArbitrationContext)

/-- The candidates of a list, before they are ordered. -/
def listed (candidates : List JobId) : List ArbitrationCandidate :=
  (candidates.filterMap c.jobs.find).map (candidate_of c.policy)

theorem mem_listed {candidates : List JobId} {a : ArbitrationCandidate}
    (h : a ∈ c.listed candidates) :
    ∃ j, c.jobs.find a.job = some j ∧ a = candidate_of c.policy j := by
  obtain ⟨j, hj, rfl⟩ := List.mem_map.mp h
  obtain ⟨id, _, hfind⟩ := List.mem_filterMap.mp hj
  have hid : j.id = id := Table.key_of_find hfind
  exact ⟨j, by rw [← hid] at hfind; exact hfind, rfl⟩

/-- Listed candidates of one place are one candidate. -/
theorem listed_antisymm {l l' : List JobId} {a b : ArbitrationCandidate} (ha : a ∈ c.listed l)
    (hb : b ∈ c.listed l') (hab : candidate_le a b = true) (hba : candidate_le b a = true) :
    a = b := by
  have hplace : a.place = b.place :=
    le_antisymm (candidate_le_iff.mp hab) (candidate_le_iff.mp hba)
  have hjob : a.job = b.job := congrArg (fun x => (ofLex (ofLex x).2).2) hplace
  obtain ⟨j, hj, rfl⟩ := c.mem_listed ha
  obtain ⟨k, hk, rfl⟩ := c.mem_listed hb
  rw [hjob] at hj
  rw [Option.some.inj (hj.symm.trans hk)]

theorem order_candidates_perm {l l' : List JobId} (h : l.Perm l') :
    order_candidates (l.filterMap c.jobs.find) c.policy =
      order_candidates (l'.filterMap c.jobs.find) c.policy := by
  have hperm : (order_candidates (l.filterMap c.jobs.find) c.policy).Perm
      (order_candidates (l'.filterMap c.jobs.find) c.policy) := by
    refine (List.perm_insertionSort _ _).trans ?_
    refine ((h.filterMap _).map _).trans ?_
    exact (List.perm_insertionSort _ _).symm
  refine hperm.eq_of_pairwise ?_ (List.pairwise_insertionSort _ _) (List.pairwise_insertionSort _ _)
  intro a b ha hb
  exact c.listed_antisymm ((List.perm_insertionSort _ _).subset ha)
    ((List.perm_insertionSort _ _).subset hb)

/-! ## Decisions keep the places -/

theorem decide_candidate_place (candidate : ArbitrationCandidate) (position granted : Nat)
    (ledger : AuthorityLedger) :
    (c.decide_candidate candidate position granted ledger).1.place = candidate.place := by
  unfold decide_candidate
  split
  · rfl
  · split
    · rfl
    · split
      · rfl
      · split <;> rfl

theorem decide_all_places : ∀ (candidates : List ArbitrationCandidate) (position granted : Nat)
    (ledger : AuthorityLedger),
    (c.decide_all candidates position granted ledger).1.map ArbitrationDecision.place =
      candidates.map ArbitrationCandidate.place
  | [], _, _, _ => rfl
  | candidate :: rest, position, granted, ledger => by
      unfold decide_all
      rw [List.map_cons, List.map_cons, decide_candidate_place, decide_all_places rest]

/-- The loop reads the candidates it is given, not the list in the context. -/
theorem decide_all_unlisted (listed : List JobId) : ∀ (candidates : List ArbitrationCandidate)
    (position granted : Nat) (ledger : AuthorityLedger),
    ({ c with candidates := listed } : ArbitrationContext).decide_all candidates position granted
      ledger = c.decide_all candidates position granted ledger
  | [], _, _, _ => rfl
  | candidate :: rest, position, granted, ledger => by
      unfold decide_all
      simp only [decide_all_unlisted listed rest]
      rfl

/-- Whatever order the candidates are listed in, repetitions included, the decisions, the report
    and the ledger come out the same; and the decisions stand in the order of tier rank, creation
    time and job identity of the jobs they are about. -/
theorem arbitration_order_free (c : ArbitrationContext) (ledger : AuthorityLedger) :
    (∀ candidates, candidates.Perm c.candidates →
      arbitrate { c with candidates } ledger = arbitrate c ledger ∧
      arbitration_report { c with candidates } ledger = arbitration_report c ledger) ∧
    (arbitrate c ledger).1.Pairwise (fun a b => a.place ≤ b.place) ∧
    (∀ d ∈ (arbitrate c ledger).1, ∃ j, c.jobs.find d.job = some j ∧
      d.tier_rank = c.policy.tier_rank j.priority ∧ d.created_at = j.created_at) := by
  -- The candidates are put in order first, and only equal ones tie.
  have hsame : ∀ candidates, candidates.Perm c.candidates →
      arbitrate { c with candidates } ledger = arbitrate c ledger := by
    intro candidates hperm
    unfold arbitrate
    rw [decide_all_unlisted, c.order_candidates_perm hperm]
  have hplaces := c.decide_all_places
    (order_candidates (c.candidates.filterMap c.jobs.find) c.policy) 0 0 ledger
  refine ⟨?_, ?_, ?_⟩
  · intro candidates hperm
    refine ⟨hsame candidates hperm, ?_⟩
    unfold arbitration_report
    rw [hsame candidates hperm]
  · rw [← List.pairwise_map (R := (· ≤ ·)) (f := ArbitrationDecision.place)]
    unfold arbitrate
    rw [hplaces, List.pairwise_map]
    exact (List.pairwise_insertionSort _ _).imp (fun h => candidate_le_iff.mp h)
  · intro d hd
    have hmem : d.place ∈ (arbitrate c ledger).1.map ArbitrationDecision.place :=
      List.mem_map_of_mem hd
    unfold arbitrate at hmem
    rw [hplaces] at hmem
    obtain ⟨a, ha, hplace⟩ := List.mem_map.mp hmem
    obtain ⟨j, hj, rfl⟩ := c.mem_listed ((List.perm_insertionSort _ _).subset ha)
    have hjob : j.id = d.job := congrArg (fun x => (ofLex (ofLex x).2).2) hplace
    refine ⟨j, hjob ▸ hj, ?_, ?_⟩
    · exact (congrArg (fun x => (ofLex x).1) hplace).symm
    · exact (congrArg (fun x => (ofLex (ofLex x).2).1) hplace).symm

end ArbitrationContext

end MaintenanceFabric
