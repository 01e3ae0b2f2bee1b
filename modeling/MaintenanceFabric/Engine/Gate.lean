import MaintenanceFabric.Engine.Preconditions

/-! # The gate

    What an evaluation without violations and without pending results has
    established.  Each check is read once here; everything that rests on a
    start takes it from `Gate`.
-/

namespace MaintenanceFabric

/-! ## Freshness -/

namespace EvidenceStore

/-- The life of a record: neither from the future nor fenced nor expired. -/
def Current (r : EvidenceRecord) (current : ControllerIncarnation) (now : Nanos) : Prop :=
  r.observed_at - now ≤ limits.kMaxClockSkewNanos ∧
    ¬ (r.klass = .Volatile ∧ is_fenced_by r.observed_by current = true) ∧
    now ≤ r.observed_at + r.ttl

instance (r : EvidenceRecord) (current : ControllerIncarnation) (now : Nanos) :
    Decidable (Current r current now) := inferInstanceAs (Decidable (_ ∧ _))

/-- A fresh verdict, spelled out. Bindings are compared only when both sides have one. -/
theorem judge_fresh {r : EvidenceRecord} {q : EvidenceQuery} :
    (judge r q).fresh = true ↔
      (q.job.valid = true → r.job.valid = true → r.job = q.job) ∧
      (q.attempt.valid = true → r.attempt.valid = true → r.attempt = q.attempt) ∧
      Current r q.current q.now := by
  unfold judge Freshness.fresh Current
  simp only [Bool.and_eq_true, decide_eq_true_eq]
  split
  · next h => simp [h]
  · next hjob =>
    have hjob' : q.job.valid = true → r.job.valid = true → r.job = q.job := by
      intro hq hr
      by_contra hne
      exact hjob ⟨⟨hq, hr⟩, hne⟩
    split
    · next h => simp [h]
    · next hattempt =>
      have hattempt' : q.attempt.valid = true → r.attempt.valid = true → r.attempt = q.attempt := by
        intro hq hr
        by_contra hne
        exact hattempt ⟨⟨hq, hr⟩, hne⟩
      split
      · next h => simp [not_le.mpr h]
      · next hskew =>
        split
        · next h => simp [h.1, h.2]
        · next hfenced =>
          split
          · next h => simp [not_le.mpr h]
          · next hlife =>
            exact ⟨fun _ => ⟨hjob', hattempt', not_lt.mp hskew, hfenced, not_lt.mp hlife⟩,
              fun _ => rfl⟩

theorem evaluate_fresh {s : EvidenceStore} {q : EvidenceQuery} {r : EvidenceRecord}
    (hfind : s.find q.key = some r) : (s.evaluate q).fresh = (judge r q).fresh := by
  unfold evaluate
  rw [hfind]

end EvidenceStore

namespace PreconditionContext

variable {c : PreconditionContext}

/-! ## One check at a time -/

/-- The checks that look for offenders have one shape: the list of offenders is empty. -/
theorem satisfied_of_filter_nil {α : Type} {l : List α} {p : α → Bool}
    (h : l.filter (fun e => !p e) = []) : ∀ e ∈ l, p e = true := by
  intro e he
  simpa using List.filter_eq_nil_iff.mp h e he

theorem targets_known_satisfied (h : c.targets_known.status = .Satisfied) :
    ∀ t ∈ c.job.targets, c.topology.contains t = true := by
  unfold targets_known at h
  split at h
  · next hnil => exact satisfied_of_filter_nil hnil
  · cases h

theorem targets_maintainable_satisfied (h : c.targets_maintainable.status = .Satisfied) :
    ∀ t ∈ c.job.targets, ∀ r, c.topology.target t = some r → r.maintainable = true := by
  unfold targets_maintainable at h
  split at h
  · next hnil =>
    intro t ht r hr
    have hnot := List.filter_eq_nil_iff.mp hnil t ht
    rw [hr] at hnot
    simpa using hnot
  · cases h

theorem dependency_satisfied_complete (h : c.dependency_satisfied.status = .Satisfied) :
    ∀ d ∈ c.job.depends_on, ∃ other, c.jobs.find d = some other ∧ other.state = .Complete := by
  unfold dependency_satisfied at h
  split at h
  · cases h
  · next hbroken =>
    split at h
    · cases h
    · next hunfinished =>
      intro d hd
      have hb := List.filterMap_eq_nil_iff.mp hbroken d hd
      have hu := List.filterMap_eq_nil_iff.mp hunfinished d hd
      unfold broken_dependency at hb
      unfold unfinished_dependency at hu
      cases hfind : c.jobs.find d with
      | none =>
        rw [hfind] at hb
        cases hb
      | some other =>
        rw [hfind] at hb hu
        simp only [ite_eq_right_iff, reduceCtorEq, imp_false, not_or] at hb
        simp only [ite_eq_left_iff, reduceCtorEq, imp_false, not_not] at hu
        rcases hu with hu | hu | hu
        · exact ⟨other, rfl, hu⟩
        · exact absurd hu hb.1
        · exact absurd hu hb.2

theorem evidence_fresh_satisfied (h : c.evidence_fresh.status = .Satisfied) :
    ∀ t ∈ c.job.removal_set, c.readiness.is_fresh t = true := by
  unfold evidence_fresh at h
  split at h
  · next hnil =>
    intro t ht
    rw [← Bool.not_eq_false]
    intro hno
    have hmem : t ∈ c.readiness.unfresh c.job.removal_set := by
      simp [ReadinessView.unfresh, ht, hno]
    rw [hnil] at hmem
    cases hmem
  · cases h

theorem redundancy_satisfied (h : c.redundancy.status = .Satisfied) :
    ∀ e ∈ c.impact.pools, e.satisfied = true := by
  unfold redundancy at h
  split at h
  · next hnil => exact satisfied_of_filter_nil hnil
  · cases h

theorem failure_domain_satisfied (h : c.failure_domain.status = .Satisfied) :
    ∀ e ∈ c.impact.domains, e.satisfied = true := by
  unfold failure_domain at h
  split at h
  · next hnil => exact satisfied_of_filter_nil hnil
  · cases h

theorem contract_availability_satisfied (h : c.contract_availability.status = .Satisfied) :
    ∀ e ∈ c.impact.contracts, e.satisfied = true := by
  unfold contract_availability at h
  split at h
  · next hnil => exact satisfied_of_filter_nil hnil
  · cases h

theorem intersects_eq_false {a b : List TargetId} (h : intersects a b = false) :
    ∀ t ∈ a, t ∉ b := by
  intro t ha hb
  have : intersects a b = true := by
    simp only [intersects, List.any_eq_true, decide_eq_true_eq]
    exact ⟨t, ha, hb⟩
  rw [h] at this
  cases this

theorem conflicting_maintenance_satisfied (h : c.conflicting_maintenance.status = .Satisfied) :
    (∀ other ∈ c.jobs.jobs.rows, other.id ≠ c.job.id → c.committed other = true →
      ∀ t ∈ other.removal_set, t ∉ c.job.removal_set) ∧
    (∀ r ∈ c.ledger.reservations.rows, r.job ≠ c.job.id → r.live_at c.now = true →
      ∀ t ∈ r.targets, t ∉ c.job.removal_set) := by
  unfold conflicting_maintenance at h
  split at h
  · next hnil =>
    -- No conflict is listed, so each of the two sources yields none.
    have hnone : ∀ x, x ∉ push_all_unique (c.jobs.jobs.rows.filterMap c.job_conflict)
        (c.ledger.reservations.rows.filterMap c.reservation_conflict) := by
      intro x hx
      rw [hnil] at hx
      cases hx
    simp only [mem_push_all_unique, not_or, List.mem_filterMap, not_exists, not_and] at hnone
    refine ⟨?_, ?_⟩
    · intro other hother hne hcommitted
      refine intersects_eq_false ?_
      by_contra hover
      have hconflict : ∃ x, c.job_conflict other = some x := by
        unfold job_conflict
        rw [if_neg hne, hcommitted, Bool.true_and, if_pos (by simpa using hover)]
        exact ⟨_, rfl⟩
      obtain ⟨x, hx⟩ := hconflict
      exact (hnone x).1 other hother hx
    · intro r hr hne hlive
      refine intersects_eq_false ?_
      by_contra hover
      have hconflict : ∃ x, c.reservation_conflict r = some x := by
        unfold reservation_conflict
        rw [if_neg hne, hlive, Bool.true_and, if_pos (by simpa using hover)]
        exact ⟨_, rfl⟩
      obtain ⟨x, hx⟩ := hconflict
      exact (hnone x).2 r hr hx
  · cases h

theorem window_admissible_satisfied (h : c.window_admissible.status = .Satisfied) :
    (evaluate_window c.policy.windows c.job.targets c.now c.policy.require_window).allows_start =
      true := by
  unfold window_admissible at h
  simp only at h
  split at h
  · next hallows => exact hallows
  · cases h

/-- A scanned source that holds a fresh positive record under the key. -/
def vouches (evidence : EvidenceStore) (query : EvidenceQuery) : Prop :=
  ∃ record, evidence.find query.key = some record ∧
    (evidence.evaluate query).fresh = true ∧ record.payload.result = true

theorem quorum_scan_true (sources : List SourceId) (detail detail' : Text)
    (h : c.quorum_scan sources detail = (true, detail')) :
    ∃ source ∈ sources, vouches c.evidence
      { key := { kind := .ControlPlaneQuorum, subject := { kind := .Global }, source }
        current := c.current, now := c.now } := by
  induction sources generalizing detail with
  | nil => cases h
  | cons source sources ih =>
    unfold quorum_scan at h
    simp only at h
    have hrest : ∀ detail, c.quorum_scan sources detail = (true, detail') →
        ∃ s ∈ source :: sources, vouches c.evidence
          { key := { kind := .ControlPlaneQuorum, subject := { kind := .Global }, source := s }
            current := c.current, now := c.now } := by
      intro detail hscan
      obtain ⟨s, hs, hv⟩ := ih detail hscan
      exact ⟨s, List.mem_cons_of_mem _ hs, hv⟩
    split at h
    · exact hrest _ h
    · next record hfind =>
      split at h
      · next hproof =>
        rw [Bool.and_eq_true] at hproof
        exact ⟨source, List.mem_cons_self, record, hfind, hproof.1, hproof.2⟩
      · exact hrest _ h

theorem control_plane_quorum_satisfied (h : c.control_plane_quorum.status = .Satisfied)
    (hcp : ∃ t ∈ c.job.removal_set, t.kind = .ControlPlane) :
    ∃ source ∈ scanned_sources, vouches c.evidence
      { key := { kind := .ControlPlaneQuorum, subject := { kind := .Global }, source }
        current := c.current, now := c.now } := by
  unfold control_plane_quorum at h
  rw [if_pos (by simpa using hcp)] at h
  split at h
  · next hscan => exact quorum_scan_true _ _ _ hscan
  · cases h

theorem authority_reserved_satisfied (h : c.authority_reserved.status = .Satisfied) :
    ∃ r, c.ledger.find_for_job c.job.id c.job.generation = some r ∧ r.live_at c.now = true ∧
      r.attempt = c.job.active_attempt := by
  unfold authority_reserved at h
  split at h
  · split at h
    · cases h
    · next r hheld =>
      split at h
      · cases h
      · next hattempt =>
        obtain ⟨hfind, hlive⟩ := Option.filter_eq_some_iff.mp hheld
        exact ⟨r, hfind, hlive, not_not.mp hattempt⟩
  · cases h

theorem drain_acquired_satisfied (h : c.drain_acquired.status = .Satisfied)
    (hdrain : c.job.requires_drain = true) :
    c.job.lease.valid = true ∧ ∀ t ∈ c.job.removal_set, ∃ source ∈ scanned_sources,
      vouches c.evidence
        { key := { kind := .DrainLeaseState, subject := EvidenceSubject.of t, source }
          current := c.current, now := c.now, job := c.job.id
          attempt := c.job.active_attempt } := by
  unfold drain_acquired at h
  rw [if_pos hdrain] at h
  split at h
  · split at h
    · cases h
    · next hlease =>
      refine ⟨by simpa using hlease, ?_⟩
      split at h
      · next hnil =>
        intro t ht
        have hconfirmed : c.drain_confirmed t = true := satisfied_of_filter_nil hnil t ht
        unfold drain_confirmed at hconfirmed
        obtain ⟨source, hsource, hfound⟩ := List.any_eq_true.mp hconfirmed
        simp only at hfound
        split at hfound
        · cases hfound
        · next record hfind =>
          rw [Bool.and_eq_true] at hfound
          exact ⟨source, hsource, record, hfind, hfound.1, hfound.2⟩
      · cases h
  · cases h

end PreconditionContext

/-! ## All of them -/

open PreconditionContext

/-- What a clean evaluation establishes. -/
structure Gate (c : PreconditionContext) : Prop where
  declared : ∀ t ∈ c.job.targets, ∃ r, c.topology.target t = some r ∧ r.maintainable = true
  dependencies : ∀ d ∈ c.job.depends_on, ∃ other, c.jobs.find d = some other ∧
    other.state = .Complete
  evidence : ∀ t ∈ c.job.removal_set, c.readiness.is_fresh t = true
  pools : ∀ e ∈ c.impact.pools, e.satisfied = true
  domains : ∀ e ∈ c.impact.domains, e.satisfied = true
  contracts : ∀ e ∈ c.impact.contracts, e.satisfied = true
  jobs : ∀ other ∈ c.jobs.jobs.rows, other.id ≠ c.job.id → c.committed other = true →
    ∀ t ∈ other.removal_set, t ∉ c.job.removal_set
  reservations : ∀ r ∈ c.ledger.reservations.rows, r.job ≠ c.job.id → r.live_at c.now = true →
    ∀ t ∈ r.targets, t ∉ c.job.removal_set
  window : (evaluate_window c.policy.windows c.job.targets c.now
    c.policy.require_window).allows_start = true
  quorum : (∃ t ∈ c.job.removal_set, t.kind = .ControlPlane) → ∃ source ∈ scanned_sources,
    vouches c.evidence
      { key := { kind := .ControlPlaneQuorum, subject := { kind := .Global }, source }
        current := c.current, now := c.now }
  authority : ∃ r, c.ledger.find_for_job c.job.id c.job.generation = some r ∧
    r.live_at c.now = true ∧ r.attempt = c.job.active_attempt
  drain : c.job.requires_drain = true → c.job.lease.valid = true ∧ ∀ t ∈ c.job.removal_set,
    ∃ source ∈ scanned_sources, vouches c.evidence
      { key := { kind := .DrainLeaseState, subject := EvidenceSubject.of t, source }
        current := c.current, now := c.now, job := c.job.id, attempt := c.job.active_attempt }

/-- No result is violated and none is pending: every result is satisfied. -/
theorem satisfied_of_clean {c : PreconditionContext} (hv : (evaluate_preconditions c).violated = 0)
    (hp : (evaluate_preconditions c).pending = 0) :
    ∀ r ∈ c.results, r.status = .Satisfied := by
  intro r hr
  have hnot : ∀ status, count_status status c.results = 0 → r.status ≠ status := by
    intro status hzero hstatus
    have hmem : r ∈ c.results.filter (fun r => decide (r.status = status)) := by
      simp [hr, hstatus]
    rw [List.length_eq_zero_iff.mp hzero] at hmem
    cases hmem
  have hviolated := hnot .Violated hv
  have hpending := hnot .Pending hp
  cases hs : r.status with
  | Satisfied => rfl
  | Violated => exact absurd hs hviolated
  | Pending => exact absurd hs hpending

theorem gate_of_clean {c : PreconditionContext} (hv : (evaluate_preconditions c).violated = 0)
    (hp : (evaluate_preconditions c).pending = 0) : Gate c := by
  have hall := satisfied_of_clean hv hp
  unfold results at hall
  simp only [List.forall_mem_cons] at hall
  obtain ⟨_, _, hknown, hmaintainable, hdependency, hevidence, hredundancy, hdomain, _, hcontract,
    hconflict, hwindow, hquorum, hauthority, hdrain, _⟩ := hall
  refine ⟨?_, dependency_satisfied_complete hdependency, evidence_fresh_satisfied hevidence,
    redundancy_satisfied hredundancy, failure_domain_satisfied hdomain,
    contract_availability_satisfied hcontract, (conflicting_maintenance_satisfied hconflict).1,
    (conflicting_maintenance_satisfied hconflict).2, window_admissible_satisfied hwindow,
    control_plane_quorum_satisfied hquorum, authority_reserved_satisfied hauthority,
    drain_acquired_satisfied hdrain⟩
  intro t ht
  have hcontains := targets_known_satisfied hknown t ht
  unfold Topology.contains at hcontains
  obtain ⟨r, hr⟩ := Option.isSome_iff_exists.mp hcontains
  exact ⟨r, hr, targets_maintainable_satisfied hmaintainable t ht r hr⟩

end MaintenanceFabric
