import MaintenanceFabric.Store.Books

/-! # What stands beside the books

    Topology, policy, drain leases and the last incarnation have operations of
    their own.  Every other operation of the store leaves them standing.
-/

namespace MaintenanceFabric

open Lib

namespace Store

/-- The four parts no operation on jobs, evidence, authority or quarantine writes. -/
structure Stands (s s' : Store) : Prop where
  topology : s'.state.topology = s.state.topology
  policy : s'.state.policy = s.state.policy
  leases : s'.state.leases = s.state.leases
  last : s'.state.last_incarnation = s.state.last_incarnation

namespace Stands

variable {s s' s'' : Store}

theorem refl (s : Store) : Stands s s := ⟨rfl, rfl, rfl, rfl⟩

theorem trans (h : Stands s s') (h' : Stands s' s'') : Stands s s'' :=
  ⟨h'.topology.trans h.topology, h'.policy.trans h.policy, h'.leases.trans h.leases,
    h'.last.trans h.last⟩

theorem of_state_eq (h : s'.state = s.state) : Stands s s' := by
  refine ⟨?_, ?_, ?_, ?_⟩ <;> rw [h]

end Stands

/-! ## One lemma for each operation -/

theorem stands_append {s s' : Store} {entries : List Entry} {r : Status}
    (h : s.append_transaction entries = (r, s')) : Stands s s' :=
  .of_state_eq (books_append_transaction h)

theorem stands_append_and_flush {s s' : Store} {entries : List Entry} {r : Status}
    (h : s.append_and_flush entries = (r, s')) : Stands s s' :=
  .of_state_eq (books_append_and_flush h)

theorem stands_commit_job (s : Store) (job : MaintenanceJob) : Stands s (s.commit_job job).2 := by
  unfold commit_job
  split
  · exact .refl s
  · split
    · next h => exact stands_append_and_flush h
    · next h =>
      have hs := stands_append_and_flush h
      split
      · exact hs
      · exact ⟨hs.topology, hs.policy, hs.leases, hs.last⟩

theorem stands_create_job (s : Store) (job : MaintenanceJob) : Stands s (s.create_job job).2 := by
  unfold create_job
  split
  · exact .refl s
  · simp only
    split
    · exact ⟨rfl, rfl, rfl, rfl⟩
    · split
      · next h =>
        have hs := stands_append_and_flush h
        exact ⟨hs.topology, hs.policy, hs.leases, hs.last⟩
      · next h =>
        have hs := stands_append_and_flush h
        split <;> exact ⟨hs.topology, hs.policy, hs.leases, hs.last⟩

theorem stands_commit_jobs (s : Store) (jobs : List MaintenanceJob) :
    Stands s (s.commit_jobs jobs).2 := by
  unfold commit_jobs
  split
  · exact .refl s
  · split
    · exact ⟨rfl, rfl, rfl, rfl⟩
    · split
      · next h =>
        have hs := stands_append_and_flush h
        exact ⟨hs.topology, hs.policy, hs.leases, hs.last⟩
      · next h =>
        have hs := stands_append_and_flush h
        split <;> exact ⟨hs.topology, hs.policy, hs.leases, hs.last⟩

theorem stands_observe_evidence (s : Store) (evidence : EvidenceRecord) :
    Stands s (s.observe_evidence evidence).2 := by
  unfold observe_evidence
  split
  · exact .refl s
  · split
    · next h => exact stands_append h
    · next h =>
      have hs := stands_append h
      exact ⟨hs.topology, hs.policy, hs.leases, hs.last⟩

theorem stands_install_ledger (s : Store) (entries : List Entry) (staging : AuthorityLedger)
    (digests : Digests) : Stands s (s.install_ledger entries staging digests).2 := by
  unfold install_ledger
  split
  · next h => exact stands_append h
  · next h =>
    have hs := stands_append h
    exact ⟨hs.topology, hs.policy, hs.leases, hs.last⟩

theorem stands_reserve_authority (s : Store) (r : AuthorityReservation) :
    Stands s (s.reserve_authority r).2 := by
  unfold reserve_authority
  split
  · exact .refl s
  · next granted staging _ =>
    have hs := stands_install_ledger s [.reservation granted (reservation_digest granted)] staging
      (s.digests.with_reservation granted.id (reservation_digest granted))
    simp only
    split <;> next h => rw [h] at hs; exact hs

theorem stands_insert_authority (s : Store) (r : AuthorityReservation) :
    Stands s (s.insert_authority r).2 := by
  unfold insert_authority
  split
  · exact .refl s
  · exact stands_install_ledger _ _ _ _

theorem stands_release_authority (s : Store) (id : AuthorityId) (current : ControllerIncarnation) :
    Stands s (s.release_authority id current).2 := by
  unfold release_authority
  split
  · exact .refl s
  · exact stands_install_ledger _ _ _ _

theorem stands_renew_authority (s : Store) (id : AuthorityId) (attempt : AttemptId)
    (current : ControllerIncarnation) (extend now : Nanos) :
    Stands s (s.renew_authority id attempt current extend now).2 := by
  unfold renew_authority
  split
  · exact .refl s
  · split
    · exact .refl s
    · exact stands_install_ledger _ _ _ _

theorem stands_expire_authority (s : Store) (now : Nanos) : Stands s (s.expire_authority now) := by
  unfold expire_authority
  simp only
  split
  · exact .refl s
  · exact stands_install_ledger _ _ _ _

theorem stands_fence_authority (s : Store) (current : ControllerIncarnation) :
    Stands s (s.fence_authority current) := by
  unfold fence_authority
  simp only
  split
  · exact .refl s
  · exact stands_install_ledger _ _ _ _

theorem stands_quarantine_target (s : Store) (target : TargetId) (job : JobId)
    (generation : GenerationId) (reason : BlockReason) (detail : Text) (now : Nanos)
    (created_by : ControllerIncarnation) :
    Stands s (s.quarantine_target target job generation reason detail now created_by).2 := by
  unfold quarantine_target
  simp only
  split
  · exact ⟨rfl, rfl, rfl, rfl⟩
  · split
    · next h =>
      have hs := stands_append h
      exact ⟨hs.topology, hs.policy, hs.leases, hs.last⟩
    · next h =>
      have hs := stands_append h
      exact ⟨hs.topology, hs.policy, hs.leases, hs.last⟩

theorem stands_commit_quarantine (s : Store) (record : QuarantineRecord) (digest : UInt64) :
    Stands s (s.commit_quarantine record digest).2 := by
  unfold commit_quarantine
  simp only
  split
  · exact .refl s
  · split
    · next h => exact stands_append h
    · next h =>
      have hs := stands_append h
      exact ⟨hs.topology, hs.policy, hs.leases, hs.last⟩

/-- Claiming an epoch touches neither leases nor jobs. -/
theorem begin_incarnation_leases (s : Store) (controller : ControllerId) (nonce steady : Nat) :
    (s.begin_incarnation controller nonce steady).2.state.leases = s.state.leases ∧
      (s.begin_incarnation controller nonce steady).2.state.jobs = s.state.jobs := by
  unfold begin_incarnation
  split
  · exact ⟨rfl, rfl⟩
  · simp only
    split
    · next h =>
      have hs := books_append_and_flush h
      exact ⟨by rw [hs], by rw [hs]⟩
    · next h =>
      have hs := books_append_and_flush h
      exact ⟨by simp [hs], by simp [hs]⟩

theorem begin_incarnation_config (s : Store) (controller : ControllerId) (nonce steady : Nat) :
    (s.begin_incarnation controller nonce steady).2.state.topology = s.state.topology ∧
      (s.begin_incarnation controller nonce steady).2.state.policy = s.state.policy := by
  unfold begin_incarnation
  split
  · exact ⟨rfl, rfl⟩
  · simp only
    split
    · next h =>
      have hs := books_append_and_flush h
      exact ⟨by rw [hs], by rw [hs]⟩
    · next h =>
      have hs := books_append_and_flush h
      exact ⟨by simp [hs], by simp [hs]⟩

/-! ## Leases -/

/-- A lease is recorded, or nothing changes. -/
theorem commit_lease_cases (s : Store) (lease : DrainLease) :
    (s.commit_lease lease).1 = ok_status ∧
        (s.commit_lease lease).2.state = { s.state with leases := s.state.leases.put lease } ∨
      (∃ e, (s.commit_lease lease).1 = .error e) ∧ (s.commit_lease lease).2.state = s.state := by
  unfold commit_lease
  split
  · next e _ h => exact .inr ⟨⟨e, rfl⟩, books_append_transaction h⟩
  · next h =>
    have hs := books_append_transaction h
    exact .inl ⟨rfl, by simp [hs]⟩

theorem commit_lease_erased_cases (s : Store) (id : DrainLeaseId) :
    (s.commit_lease_erased id).1 = ok_status ∧
        (s.commit_lease_erased id).2.state = { s.state with leases := s.state.leases.erase id } ∨
      (∃ e, (s.commit_lease_erased id).1 = .error e) ∧
        (s.commit_lease_erased id).2.state = s.state := by
  unfold commit_lease_erased
  split
  · next e _ h => exact .inr ⟨⟨e, rfl⟩, books_append_transaction h⟩
  · next h =>
    have hs := books_append_transaction h
    exact .inl ⟨rfl, by simp [hs]⟩

end Store

end MaintenanceFabric
