import MaintenanceFabric.Store.Books
import MaintenanceFabric.Store.Sessions

/-! # Identities

    Three counters hand out the identities of jobs, reservations and
    quarantines.  While a process runs they only grow, as long as nothing moves
    one past the last identity of 64 bits, where the code starts again at zero;
    only an identity brought in from outside gets them there.  What a reopened
    store counts from is the largest identity that the journal still mentions,
    for jobs the largest one that was not erased.
-/

namespace MaintenanceFabric

open Lib Journal

namespace Store

/-! ## While a process runs -/

/-- The three counters. -/
structure Allocators where
  jobs : JobId
  authorities : AuthorityId
  quarantines : QuarantineId

def allocators (s : Store) : Allocators :=
  ⟨s.state.jobs.next_id, s.state.ledger.next_id, s.state.quarantines.next_id⟩

/-- They are identities of 64 bits. -/
structure Allocators.Fit (a : Allocators) : Prop where
  jobs : a.jobs.machine
  authorities : a.authorities.machine
  quarantines : a.quarantines.machine

/-- The counters when one of them has been moved past an identity. -/
def Allocators.past (a : Allocators) : Issued → Allocators
  | .job id => { a with jobs := id.next }
  | .authority id => { a with authorities := id.next }
  | .quarantine id => { a with quarantines := id.next }

end Store

namespace Issued

/-- The identity has been passed by its counter. -/
def below (a : Store.Allocators) : Issued → Prop
  | .job id => id < a.jobs
  | .authority id => id < a.authorities
  | .quarantine id => id < a.quarantines

/-- There is an identity of 64 bits after it. -/
def spare : Issued → Prop
  | .job id => id.next.machine
  | .authority id => id.next.machine
  | .quarantine id => id.next.machine

instance : DecidablePred spare := fun i => by
  cases i <;> exact inferInstanceAs (Decidable (StrongId.machine _))

end Issued

namespace Store

/-- Counters that fit are moved past an identity that is not the last. -/
theorem Allocators.Fit.past {a : Allocators} (h : a.Fit) {i : Issued} (hi : i.spare) :
    (a.past i).Fit := by
  cases i with
  | job id => exact ⟨hi, h.authorities, h.quarantines⟩
  | authority id => exact ⟨h.jobs, hi, h.quarantines⟩
  | quarantine id => exact ⟨h.jobs, h.authorities, hi⟩

/-- No counter goes back. -/
structure Advances (s s' : Store) : Prop where
  jobs : s.allocators.jobs ≤ s'.allocators.jobs
  authorities : s.allocators.authorities ≤ s'.allocators.authorities
  quarantines : s.allocators.quarantines ≤ s'.allocators.quarantines

theorem Advances.of_eq {s s' : Store} (h : s'.allocators = s.allocators) : Advances s s' := by
  constructor <;> rw [h]

theorem Advances.trans {s s' s'' : Store} (h : Advances s s') (h' : Advances s' s'') :
    Advances s s'' :=
  ⟨h.jobs.trans h'.jobs, h.authorities.trans h'.authorities, h.quarantines.trans h'.quarantines⟩

/-- A counter that is moved past an identity ahead of it goes forward. -/
theorem Advances.of_past {s s' : Store} {i : Issued} (h : ¬ i.below s.allocators)
    (hs : s'.allocators = s.allocators.past i) : Advances s s' ∧ i.below s'.allocators := by
  have hnext : ∀ {tag : IdTag} {n m : StrongId tag}, ¬ m < n → n ≤ m.next ∧ m < m.next := by
    intro tag n m hle
    have hlt : m < m.next := Nat.lt_succ_self _
    exact ⟨(not_lt.mp hle).trans hlt.le, hlt⟩
  -- One counter is put past the identity, the other two stay.
  cases i with
  | job id =>
    obtain ⟨hle, hlt⟩ := hnext h
    refine ⟨⟨?_, ?_, ?_⟩, ?_⟩ <;> rw [hs]
    · exact hle
    · exact le_refl _
    · exact le_refl _
    · exact hlt
  | authority id =>
    obtain ⟨hle, hlt⟩ := hnext h
    refine ⟨⟨?_, ?_, ?_⟩, ?_⟩ <;> rw [hs]
    · exact le_refl _
    · exact hle
    · exact le_refl _
    · exact hlt
  | quarantine id =>
    obtain ⟨hle, hlt⟩ := hnext h
    refine ⟨⟨?_, ?_, ?_⟩, ?_⟩ <;> rw [hs]
    · exact le_refl _
    · exact le_refl _
    · exact hle
    · exact hlt

theorem Quiet.allocators {s s' : Store} (h : Quiet s s') : s'.allocators = s.allocators := by
  unfold Store.allocators
  rw [h.1]

theorem allocators_append_transaction {s s' : Store} {entries : List Entry} {r : Status}
    (h : s.append_transaction entries = (r, s')) : s'.allocators = s.allocators := by
  have hquiet := quiet_append_transaction s entries
  rw [h] at hquiet
  exact hquiet.allocators

theorem allocators_append_and_flush {s s' : Store} {entries : List Entry} {r : Status}
    (h : s.append_and_flush entries = (r, s')) : s'.allocators = s.allocators := by
  have hquiet := quiet_append_and_flush s entries
  rw [h] at hquiet
  exact hquiet.allocators

theorem allocators_begin_incarnation (s : Store) (controller : ControllerId) (nonce steady : Nat) :
    (s.begin_incarnation controller nonce steady).2.allocators = s.allocators := by
  unfold begin_incarnation
  split
  · rfl
  · simp only
    split
    · next h =>
      have hs := allocators_append_and_flush h
      exact hs
    · next h =>
      have hs := allocators_append_and_flush h
      exact hs

theorem allocators_commit_topology (s : Store) (t : Topology) :
    (s.commit_topology t).2.allocators = s.allocators := by
  unfold commit_topology
  split
  · rfl
  · split
    · next h =>
      have hs := allocators_append_and_flush h
      exact hs
    · next h =>
      have hs := allocators_append_and_flush h
      split
      · exact hs
      · exact hs

theorem allocators_commit_policy (s : Store) (p : Policy) :
    (s.commit_policy p).2.allocators = s.allocators := by
  unfold commit_policy
  split
  · rfl
  · split
    · next h =>
      have hs := allocators_append_and_flush h
      exact hs
    · next h =>
      have hs := allocators_append_and_flush h
      split
      · exact hs
      · exact hs

theorem allocators_commit_job (s : Store) (job : MaintenanceJob) :
    (s.commit_job job).2.allocators = s.allocators := by
  unfold commit_job
  split
  · rfl
  · split
    · next h =>
      have hs := allocators_append_and_flush h
      exact hs
    · next h =>
      have hs := allocators_append_and_flush h
      split
      · exact hs
      · exact hs

theorem put_all_next_id : ∀ {jobs : List MaintenanceJob} {table table' : JobTable}
    {previous previous' : List MaintenanceJob},
    put_all table previous jobs = .ok (table', previous') → table'.next_id = table.next_id
  | [], table, table', previous, previous', h => by
      cases h
      rfl
  | job :: jobs, table, table', previous, previous', h => by
      unfold put_all at h
      split at h
      · cases h
      · split at h
        · cases h
        · next hput =>
          rw [put_all_next_id h, put_of_ok hput]

theorem allocators_commit_jobs (s : Store) (jobs : List MaintenanceJob) :
    (s.commit_jobs jobs).2.allocators = s.allocators := by
  unfold commit_jobs
  split
  · rfl
  · split
    · rfl
    · next table previous hput =>
      have hnext := put_all_next_id hput
      -- Every outcome installs the table of `put_all`, or what a roll back makes of it.
      have hinstall : ∀ {s' : Store} {t : JobTable}, s'.allocators = s.allocators →
          t.next_id = table.next_id → (s'.with_jobs t).allocators = s.allocators := by
        intro s' t hs' ht
        rw [← hs']
        simp only [allocators, with_jobs, ht, hnext]
        rw [← show s'.allocators.jobs = s'.state.jobs.next_id from rfl, hs']
        rfl
      split
      · next h => exact hinstall (allocators_append_and_flush h) rfl
      · next h =>
        split
        · exact hinstall (allocators_append_and_flush h) rfl
        · exact hinstall (allocators_append_and_flush h) rfl

theorem allocators_commit_job_erased (s : Store) (job : JobId) :
    (s.commit_job_erased job).2.allocators = s.allocators := by
  unfold commit_job_erased
  split
  · rfl
  · split
    · next h =>
      have hs := allocators_append_and_flush h
      exact hs
    · next h =>
      have hs := allocators_append_and_flush h
      split
      · exact hs
      · exact hs

theorem allocators_observe_evidence (s : Store) (evidence : EvidenceRecord) (digest : UInt64) :
    (s.observe_evidence evidence digest).2.allocators = s.allocators := by
  unfold observe_evidence
  split
  · rfl
  · split
    · next h =>
      have hs := allocators_append_transaction h
      exact hs
    · next h =>
      have hs := allocators_append_transaction h
      exact hs

theorem allocators_commit_lease (s : Store) (lease : DrainLease) :
    (s.commit_lease lease).2.allocators = s.allocators := by
  unfold commit_lease
  split
  · next h =>
    have hs := allocators_append_transaction h
    exact hs
  · next h =>
    have hs := allocators_append_transaction h
    exact hs

theorem allocators_commit_lease_erased (s : Store) (id : DrainLeaseId) :
    (s.commit_lease_erased id).2.allocators = s.allocators := by
  unfold commit_lease_erased
  split
  · next h =>
    have hs := allocators_append_transaction h
    exact hs
  · next h =>
    have hs := allocators_append_transaction h
    exact hs

/-! ### Calls that change a counter -/

theorem install_ledger_counters (s : Store) (entries : List Entry) (staging : AuthorityLedger)
    (digests : Digests) :
    let out := s.install_ledger entries staging digests
    (out.2.allocators = s.allocators ∨
      out.2.allocators = { s.allocators with authorities := staging.next_id }) ∧
    (out.1 = .ok () → out.2.allocators = { s.allocators with authorities := staging.next_id }) := by
  unfold install_ledger
  simp only
  split
  · next h =>
    refine ⟨.inl (allocators_append_transaction h), ?_⟩
    intro hok
    cases hok
  · next h =>
    have hs := allocators_append_transaction h
    have hmoved : { s.allocators with authorities := staging.next_id } =
        (⟨_, staging.next_id, _⟩ : Allocators) := rfl
    rw [← hs] at hmoved ⊢
    exact ⟨.inr rfl, fun _ => rfl⟩

/-- The ledger is replaced by one with the same counter. -/
theorem install_ledger_still (s : Store) (entries : List Entry) {staging : AuthorityLedger}
    (digests : Digests) (h : staging.next_id = s.state.ledger.next_id) :
    (s.install_ledger entries staging digests).2.allocators = s.allocators := by
  obtain ⟨hsame | hmoved, -⟩ := s.install_ledger_counters entries staging digests
  · exact hsame
  · rw [hmoved, h]
    rfl

/-- How a call hands out the identity its counter stands at. The counter may have been moved
    without that. -/
structure Counts {α : Type} (kind : α → Issued) (i : Issued) (s : Store) (r : Result α)
    (s' : Store) : Prop where
  counters : s'.allocators = s.allocators ∨ s'.allocators = s.allocators.past i
  handed : ∀ id, r = .ok id → kind id = i ∧ s'.allocators = s.allocators.past i

theorem Counts.refused {α : Type} {kind : α → Issued} {i : Issued} {s s' : Store} {e : Error}
    (h : s'.allocators = s.allocators ∨ s'.allocators = s.allocators.past i) :
    Counts kind i s (.error e) s' :=
  ⟨h, fun _ hid => by cases hid⟩

theorem Counts.granted {α : Type} {kind : α → Issued} {i : Issued} {s s' : Store} {id : α}
    (hid : kind id = i) (h : s'.allocators = s.allocators.past i) :
    Counts kind i s (.ok id) s' := by
  refine ⟨.inr h, ?_⟩
  rintro _ ⟨⟩
  exact ⟨hid, h⟩

theorem counts_reserve_authority (s : Store) (r : AuthorityReservation) :
    Counts .authority (.authority s.state.ledger.next_id) s (s.reserve_authority r).1
      (s.reserve_authority r).2 := by
  unfold reserve_authority
  split
  · exact .refused (.inl rfl)
  · next granted staging hreserve =>
    obtain ⟨hgranted, hstaging, -, -⟩ := AuthorityLedger.reserve_ok hreserve
    obtain ⟨hcounters, hok⟩ := s.install_ledger_counters
      [.reservation granted (reservation_digest granted)] staging
      (s.digests.with_reservation granted.id (reservation_digest granted))
    have hnext : staging.next_id = s.state.ledger.next_id.next := by rw [hstaging]
    rw [hnext] at hcounters hok
    simp only
    split
    · next h =>
      rw [h] at hcounters
      exact .refused hcounters
    · next h =>
      rw [h] at hok
      exact .granted (by rw [hgranted]) (hok rfl)

theorem counters_insert_authority (s : Store) (r : AuthorityReservation) (digest : UInt64) :
    let s' := (s.insert_authority r digest).2
    s'.allocators = s.allocators ∨
      ¬ (Issued.authority r.id).below s.allocators ∧
        s'.allocators = s.allocators.past (.authority r.id) := by
  unfold insert_authority
  simp only
  split
  · exact .inl rfl
  · next staging hadopt =>
    by_cases hge : r.id ≥ s.state.ledger.next_id
    · have hnext : staging.next_id = r.id.next := by
        rw [AuthorityLedger.adopt_ok hadopt]
        exact if_pos hge
      obtain ⟨hcounters, -⟩ := s.install_ledger_counters [.reservation r digest] staging
        (s.digests.with_reservation r.id (sealed digest (reservation_digest r)))
      rw [hnext] at hcounters
      exact hcounters.imp_right fun h => ⟨not_lt.mpr hge, h⟩
    · left
      refine s.install_ledger_still _ _ ?_
      rw [AuthorityLedger.adopt_ok hadopt]
      exact if_neg hge

theorem allocators_release_authority (s : Store) (id : AuthorityId)
    (current : ControllerIncarnation) :
    (s.release_authority id current).2.allocators = s.allocators := by
  unfold release_authority
  split
  · rfl
  · next staging hrelease =>
    obtain ⟨_, _, rfl⟩ := AuthorityLedger.release_ok hrelease
    exact s.install_ledger_still _ _ rfl

theorem allocators_renew_authority (s : Store) (id : AuthorityId) (attempt : AttemptId)
    (current : ControllerIncarnation) (extend now : Nanos) :
    (s.renew_authority id attempt current extend now).2.allocators = s.allocators := by
  unfold renew_authority
  split
  · rfl
  · next staging hrenew =>
    split
    · rfl
    · obtain ⟨_, _, _, _, _, rfl⟩ := AuthorityLedger.renew_ok hrenew
      exact s.install_ledger_still _ _ rfl

theorem allocators_expire_authority (s : Store) (now : Nanos) :
    (s.expire_authority now).allocators = s.allocators := by
  unfold expire_authority
  simp only
  split
  · rfl
  · exact s.install_ledger_still _ _ rfl

theorem allocators_fence_authority (s : Store) (current : ControllerIncarnation) :
    (s.fence_authority current).allocators = s.allocators := by
  unfold fence_authority
  simp only
  split
  · rfl
  · exact s.install_ledger_still _ _ rfl

theorem counts_create_job (s : Store) (job : MaintenanceJob) :
    Counts .job (.job s.state.jobs.next_id) s (s.create_job job).1 (s.create_job job).2 := by
  unfold create_job
  split
  · exact .refused (.inl rfl)
  · simp only
    -- The counter has moved before anything can fail.
    split
    · exact .refused (.inr rfl)
    · split
      · next h => exact .refused (.inr (allocators_append_and_flush h))
      · next h =>
        have hs := allocators_append_and_flush h
        split
        · exact .refused (.inr hs)
        · exact .granted rfl hs

theorem insert_quarantine_next_id {t t' : QuarantineTable} {record : QuarantineRecord}
    (h : t.insert record = .ok t') : t'.next_id = t.next_id := by
  unfold QuarantineTable.insert at h
  simp only [Result.bind_eq_ok] at h
  obtain ⟨_, _, _, _, h⟩ := h
  cases h
  rfl

theorem put_quarantine_next_id {t t' : QuarantineTable} {record : QuarantineRecord}
    (h : t.put record = .ok t') : t'.next_id = t.next_id := by
  unfold QuarantineTable.put at h
  simp only [Result.bind_eq_ok] at h
  obtain ⟨_, _, h⟩ := h
  cases h
  rfl

theorem counts_quarantine_target (s : Store) (target : TargetId) (job : JobId)
    (generation : GenerationId) (reason : BlockReason) (detail : Text) (now : Nanos)
    (created_by : ControllerIncarnation) :
    let out := s.quarantine_target target job generation reason detail now created_by
    Counts .quarantine (.quarantine s.state.quarantines.next_id) s out.1 out.2 := by
  unfold quarantine_target
  simp only
  split
  · exact .refused (.inr rfl)
  · next staging hinsert =>
    split
    · next h => exact .refused (.inr (allocators_append_transaction h))
    · next s' h =>
      have hs : s'.allocators = s.allocators.past (.quarantine s.state.quarantines.next_id) :=
        allocators_append_transaction h
      refine .granted rfl ?_
      -- The table that is installed has the counter that was moved before.
      have hquarantines := congrArg Allocators.quarantines hs
      rw [← hs]
      show (⟨_, _, staging.next_id⟩ : Allocators) = s'.allocators
      rw [insert_quarantine_next_id hinsert,
        ← show _ = s.state.quarantines.next_id.next from hquarantines]
      rfl

theorem allocators_commit_quarantine (s : Store) (record : QuarantineRecord) (digest : UInt64) :
    (s.commit_quarantine record digest).2.allocators = s.allocators := by
  have hstaged : ∀ {staging : QuarantineTable},
      staging.next_id = s.state.quarantines.next_id → ∀ {s' : Store} {r : Status} {d : Digests},
      s.append_transaction [.quarantine record digest] = (r, s') →
      ({ s'.with_quarantines staging with digests := d } : Store).allocators = s.allocators := by
    intro staging hstaging s' r d h
    have hs := allocators_append_transaction h
    have hquarantines := congrArg Allocators.quarantines hs
    rw [← hs]
    show (⟨_, _, staging.next_id⟩ : Allocators) = s'.allocators
    rw [hstaging, ← show _ = s.state.quarantines.next_id from hquarantines]
    rfl
  unfold commit_quarantine
  split
  next applied stored_digest heq =>
  have hnext : ∀ staging, applied = .ok staging →
      staging.next_id = s.state.quarantines.next_id := by
    intro staging happlied
    split at heq
    · obtain ⟨rfl, -⟩ := Prod.mk.inj heq
      exact insert_quarantine_next_id happlied
    · obtain ⟨rfl, -⟩ := Prod.mk.inj heq
      exact put_quarantine_next_id happlied
  cases applied with
  | error e => rfl
  | ok staging =>
    simp only
    split
    · next h => exact allocators_append_transaction h
    · next h => exact hstaged (hnext staging rfl) h

end Store

namespace Issued

/-- The identity is the one its counter hands out next. -/
def next (a : Store.Allocators) : Issued → Prop
  | .job id => id = a.jobs
  | .authority id => id = a.authorities
  | .quarantine id => id = a.quarantines

theorem below_of_advances {s s' : Store} (h : Store.Advances s s') {i : Issued}
    (hi : i.below s.allocators) : i.below s'.allocators := by
  cases i with
  | job id => exact lt_of_lt_of_le hi h.jobs
  | authority id => exact lt_of_lt_of_le hi h.authorities
  | quarantine id => exact lt_of_lt_of_le hi h.quarantines

theorem not_below_of_next {a : Store.Allocators} {i : Issued} (hi : i.next a) : ¬ i.below a := by
  cases i with
  | job id => exact not_lt.mpr (le_of_eq hi.symm)
  | authority id => exact not_lt.mpr (le_of_eq hi.symm)
  | quarantine id => exact not_lt.mpr (le_of_eq hi.symm)

end Issued

namespace Store

/-- The identity that a call may move a counter past: the one that is handed out, or one that comes
    from outside. -/
def reaches (s : Store) : StoreCall → Option Issued
  | .create_job _ => some (.job s.state.jobs.next_id)
  | .quarantine_target _ _ _ _ _ _ _ => some (.quarantine s.state.quarantines.next_id)
  | .reserve_authority _ => some (.authority s.state.ledger.next_id)
  | .insert_authority r _ => some (.authority r.id)
  | _ => none

/-- What a call may do to the counters: move one of them past an identity ahead of it, and hand out
    the identity that it stood at. -/
structure Allocates (s : Store) (reach : Option Issued) (out : List Issued × Store) : Prop where
  counters : out.2.allocators = s.allocators ∨
    ∃ i ∈ reach, ¬ i.below s.allocators ∧ out.2.allocators = s.allocators.past i
  single : out.1.length ≤ 1
  handed : ∀ i ∈ out.1, i.next s.allocators ∧ out.2.allocators = s.allocators.past i

namespace Allocates

variable {s : Store} {reach : Option Issued} {out : List Issued × Store}

theorem nothing {s' : Store} (h : s'.allocators = s.allocators) : Allocates s reach ([], s') :=
  ⟨.inl h, Nat.zero_le _, by simp⟩

/-- A call that answers with an identity of one kind. -/
theorem of_counts {α : Type} {kind : α → Issued} {i : Issued} {s' : Store} {r : Result α}
    (hi : i.next s.allocators) (h : Counts kind i s r s') :
    Allocates s (some i) (issued kind r, s') := by
  refine ⟨?_, ?_, ?_⟩
  · exact h.counters.imp_right fun hpast => ⟨i, rfl, Issued.not_below_of_next hi, hpast⟩
  · cases r <;> simp [issued]
  · intro x hx
    cases r with
    | error e => cases hx
    | ok id =>
      obtain ⟨hid, hpast⟩ := h.handed id rfl
      rw [List.mem_singleton.mp hx, hid]
      exact ⟨hi, hpast⟩

theorem advances (h : Allocates s reach out) : Advances s out.2 := by
  obtain hsame | ⟨i, -, hahead, hpast⟩ := h.counters
  · exact .of_eq hsame
  · exact (Advances.of_past hahead hpast).1

theorem handed_below (h : Allocates s reach out) : ∀ i ∈ out.1, i.below out.2.allocators := by
  intro i hi
  obtain ⟨hnext, hpast⟩ := h.handed i hi
  exact (Advances.of_past (Issued.not_below_of_next hnext) hpast).2

theorem fit (h : Allocates s reach out) (hs : s.allocators.Fit) (hreach : ∀ i ∈ reach, i.spare) :
    out.2.allocators.Fit := by
  obtain hsame | ⟨i, hi, -, hpast⟩ := h.counters
  · rw [hsame]
    exact hs
  · rw [hpast]
    exact hs.past (hreach i hi)

end Allocates

theorem call_allocates (s : Store) (c : StoreCall) : Allocates s (s.reaches c) (s.call c) := by
  cases c with
  | begin_incarnation controller nonce steady =>
    exact .nothing (allocators_begin_incarnation s controller nonce steady)
  | commit_topology t => exact .nothing (allocators_commit_topology s t)
  | commit_policy p => exact .nothing (allocators_commit_policy s p)
  | create_job job => exact .of_counts rfl (counts_create_job s job)
  | allocate_evidence_id => exact .nothing rfl
  | quarantine_target target job generation reason detail now created_by =>
    exact .of_counts rfl
      (counts_quarantine_target s target job generation reason detail now created_by)
  | commit_job job => exact .nothing (allocators_commit_job s job)
  | commit_jobs jobs => exact .nothing (allocators_commit_jobs s jobs)
  | commit_job_erased job => exact .nothing (allocators_commit_job_erased s job)
  | observe_evidence evidence digest =>
    exact .nothing (allocators_observe_evidence s evidence digest)
  | reserve_authority r => exact .of_counts rfl (counts_reserve_authority s r)
  -- The one call that brings an identity in from outside.
  | insert_authority r digest =>
    refine ⟨?_, Nat.zero_le _, fun _ hi => by cases hi⟩
    exact (counters_insert_authority s r digest).imp_right fun h => ⟨_, rfl, h⟩
  | release_authority id current => exact .nothing (allocators_release_authority s id current)
  | renew_authority id attempt current extend now =>
    exact .nothing (allocators_renew_authority s id attempt current extend now)
  | expire_authority now => exact .nothing (allocators_expire_authority s now)
  | fence_authority current => exact .nothing (allocators_fence_authority s current)
  | commit_lease lease => exact .nothing (allocators_commit_lease s lease)
  | commit_lease_erased id => exact .nothing (allocators_commit_lease_erased s id)
  | commit_quarantine record digest =>
    exact .nothing (allocators_commit_quarantine s record digest)
  | flush => exact .nothing (quiet_flush s).allocators

/-! ## After a restart -/

/-- A table that adopts a record moves its counter past it. -/
theorem adopt_passes {l l' : AuthorityLedger} {r : AuthorityReservation}
    (h : l.adopt r = .ok l') : l.next_id ≤ l'.next_id ∧ r.id < l'.next_id := by
  rw [AuthorityLedger.adopt_ok h]
  have hnext : r.id < r.id.next := Nat.lt_succ_self _
  simp only
  split
  · next hge => exact ⟨hge.le.trans hnext.le, hnext⟩
  · next hlt => exact ⟨le_refl _, not_le.mp hlt⟩

theorem adopt_quarantine_passes {t t' : QuarantineTable} {q : QuarantineRecord}
    (h : t.adopt q = .ok t') : t.next_id ≤ t'.next_id ∧ q.id < t'.next_id := by
  unfold QuarantineTable.adopt at h
  obtain ⟨_, _, h⟩ := Result.bind_eq_ok.mp h
  cases h
  have hnext : q.id < q.id.next := Nat.lt_succ_self _
  simp only
  split
  · next hge => exact ⟨hge.le.trans hnext.le, hnext⟩
  · next hlt => exact ⟨le_refl _, not_le.mp hlt⟩

theorem adopt_counter {l l' : AuthorityLedger} {r : AuthorityReservation} (h : l.adopt r = .ok l') :
    l'.next_id = l.next_id ∨ ¬ r.id < l.next_id ∧ l'.next_id = r.id.next := by
  rw [AuthorityLedger.adopt_ok h]
  by_cases hge : r.id ≥ l.next_id
  · exact .inr ⟨not_lt.mpr hge, if_pos hge⟩
  · exact .inl (if_neg hge)

theorem adopt_quarantine_counter {t t' : QuarantineTable} {q : QuarantineRecord}
    (h : t.adopt q = .ok t') :
    t'.next_id = t.next_id ∨ ¬ q.id < t.next_id ∧ t'.next_id = q.id.next := by
  unfold QuarantineTable.adopt at h
  obtain ⟨_, _, h⟩ := Result.bind_eq_ok.mp h
  cases h
  by_cases hge : q.id ≥ t.next_id
  · exact .inr ⟨not_lt.mpr hge, if_pos hge⟩
  · exact .inl (if_neg hge)

/-- The identity is that of a reservation or a quarantine which the record decodes to. -/
def Decodes (record : Record) : Issued → Prop
  | .job _ => False
  | .authority id => record.type = .Reservation ∧
      ∃ r digest, decode_reservation_record record = .ok (r, digest) ∧ r.id = id
  | .quarantine id => record.type = .Quarantine ∧
      ∃ q digest, decode_quarantine_record record = .ok (q, digest) ∧ q.id = id

/-- Applying a record moves a counter at most past an identity that the record carries. -/
theorem counters_apply (s : Store) (record : Record) (strict : Bool) :
    (s.apply record strict).2.allocators = s.allocators ∨
      ∃ i, Decodes record i ∧ ¬ i.below s.allocators ∧
        (s.apply record strict).2.allocators = s.allocators.past i := by
  cases htype : record.type with
  | Reservation =>
    simp only [apply, htype]
    cases hdecode : decode_reservation_record record with
    | error e => exact .inl rfl
    | ok decoded =>
      obtain ⟨r, digest⟩ := decoded
      simp only
      cases hadopt : s.state.ledger.adopt r with
      | error e => exact .inl rfl
      | ok ledger =>
        simp only
        obtain hsame | ⟨hahead, hnext⟩ := adopt_counter hadopt
        · left
          show (⟨_, ledger.next_id, _⟩ : Allocators) = s.allocators
          rw [hsame]
          rfl
        · refine .inr ⟨.authority r.id, ⟨htype, r, digest, hdecode, rfl⟩, hahead, ?_⟩
          show (⟨_, ledger.next_id, _⟩ : Allocators) = s.allocators.past (.authority r.id)
          rw [hnext]
          rfl
  | Quarantine =>
    simp only [apply, htype]
    cases hdecode : decode_quarantine_record record with
    | error e => exact .inl rfl
    | ok decoded =>
      obtain ⟨q, digest⟩ := decoded
      simp only
      cases hadopt : s.state.quarantines.adopt q with
      | error e => exact .inl rfl
      | ok quarantines =>
        simp only
        obtain hsame | ⟨hahead, hnext⟩ := adopt_quarantine_counter hadopt
        · left
          show (⟨_, _, quarantines.next_id⟩ : Allocators) = s.allocators
          rw [hsame]
          rfl
        · refine .inr ⟨.quarantine q.id, ⟨htype, q, digest, hdecode, rfl⟩, hahead, ?_⟩
          show (⟨_, _, quarantines.next_id⟩ : Allocators) = s.allocators.past (.quarantine q.id)
          rw [hnext]
          rfl
  | Job =>
    left
    simp only [apply, htype]
    split
    · rfl
    · split
      · rfl
      · next jobs hadopt =>
        unfold JobTable.adopt at hadopt
        obtain ⟨_, _, hadopt⟩ := Result.bind_eq_ok.mp hadopt
        cases hadopt
        rfl
  | Evidence =>
    left
    simp only [apply, htype]
    split
    · rfl
    · split <;> rfl
  -- The other records leave the three tables alone, or only take something out of them.
  | Unknown | Transaction | QuarantineErased | Marker =>
    left
    simp only [apply, htype]
  | Topology | Policy | JobErased | ReservationErased | Lease | LeaseErased | Boot =>
    left
    simp only [apply, htype]
    split <;> rfl

/-- Applying a record never moves a counter back. -/
theorem advances_apply (s : Store) (record : Record) (strict : Bool) :
    Advances s (s.apply record strict).2 := by
  obtain hsame | ⟨i, -, hahead, hpast⟩ := s.counters_apply record strict
  · exact .of_eq hsame
  · exact (Advances.of_past hahead hpast).1

theorem advances_visits (s : Store) (records : List Record) :
    Advances s (records.foldl visit s) := by
  induction records generalizing s with
  | nil => exact .of_eq rfl
  | cons r records ih => exact (advances_apply s r _).trans (ih _)

/-- A record that decodes moves its counter past its identity. -/
theorem visit_reservation (s : Store) {r : AuthorityReservation} (h : r.machine) (digest : UInt64)
    (hcheck : check_reservation_record r = .ok ()) :
    r.id < (s.visit (Entry.reservation r digest).record).allocators.authorities := by
  rw [Entry.record]
  have htype : (encode_reservation_record r digest).type = .Reservation := rfl
  have hdecode := decode_encode_reservation h digest
  generalize encode_reservation_record r digest = record at htype hdecode ⊢
  obtain ⟨hid, hjob⟩ := check_reservation_record_valid hcheck
  obtain ⟨l, hl⟩ : ∃ l, s.state.ledger.adopt r = .ok l := by
    simp only [AuthorityLedger.adopt, hid, hjob]
    exact ⟨_, rfl⟩
  unfold visit apply
  rw [htype]
  simp only [hdecode, hcheck, Result.ok_bind, hl]
  exact (adopt_passes hl).2

theorem visit_quarantine (s : Store) {q : QuarantineRecord} (h : q.machine) (digest : UInt64)
    (hcheck : check_quarantine_record q = .ok ()) :
    q.id < (s.visit (Entry.quarantine q digest).record).allocators.quarantines := by
  rw [Entry.record]
  have htype : (encode_quarantine_record q digest).type = .Quarantine := rfl
  have hdecode := decode_encode_quarantine h digest
  generalize encode_quarantine_record q digest = record at htype hdecode ⊢
  obtain ⟨t, ht⟩ : ∃ t, s.state.quarantines.adopt (clipped_quarantine q) = .ok t := by
    have hvalid : (!(clipped_quarantine q).id.valid || !(clipped_quarantine q).target.valid) =
        false := by
      simpa only [clipped_quarantine, check_quarantine_record, refuse_if_eq_ok] using hcheck
    simp only [QuarantineTable.adopt, hvalid]
    exact ⟨_, rfl⟩
  unfold visit apply
  rw [htype]
  simp only [hdecode, hcheck, Result.ok_bind, ht]
  exact (adopt_quarantine_passes ht).2

/-- Whatever is visited before and after. -/
theorem visits_pass {P : Allocators → Prop} {entries : List Entry} {e : Entry} (he : e ∈ entries)
    (hup : ∀ {s s' : Store}, Advances s s' → P s.allocators → P s'.allocators)
    (hvisit : ∀ s : Store, P (s.visit e.record).allocators) (s : Store) :
    P ((entries.map Entry.record).foldl visit s).allocators := by
  obtain ⟨before, after, rfl⟩ := List.append_of_mem he
  rw [List.map_append, List.map_cons, List.foldl_append, List.foldl_cons]
  exact hup (advances_visits _ _) (hvisit _)

/-! ### The job counter -/

/-- The job counter of a reopened store is past every job in the table. -/
theorem lt_next_job_id {jobs : JobTable} {j : MaintenanceJob} (h : j ∈ jobs.jobs.rows) :
    j.id < next_job_id jobs := by
  unfold next_job_id
  generalize jobs.jobs.rows = rows at h ⊢
  have hup : ∀ (rows : List MaintenanceJob) (n : JobId), n ≤ rows.foldl
      (fun next job => if job.id ≥ next then job.id.next else next) n := by
    intro rows
    induction rows with
    | nil => exact fun n => le_refl n
    | cons a rows ih =>
      intro n
      refine le_trans ?_ (ih _)
      beta_reduce
      split
      · next hge => exact hge.le.trans (Nat.le_succ _)
      · exact le_refl _
  generalize (⟨1⟩ : JobId) = start
  induction rows generalizing start with
  | nil => cases h
  | cons a rows ih =>
    rcases List.mem_cons.mp h with rfl | hrest
    · refine lt_of_lt_of_le ?_ (hup rows _)
      beta_reduce
      split
      · exact Nat.lt_succ_self _
      · next hlt => exact not_le.mp hlt
    · exact ih hrest _

theorem next_job_id_fits {jobs : JobTable} (h : ∀ j ∈ jobs.jobs.rows, j.id.next.machine) :
    (next_job_id jobs).machine := by
  unfold next_job_id
  generalize jobs.jobs.rows = rows at h ⊢
  have hone : (⟨1⟩ : JobId).machine := by decide
  generalize (⟨1⟩ : JobId) = start at hone ⊢
  induction rows generalizing start with
  | nil => exact hone
  | cons j rows ih =>
    refine ih (fun x hx => h x (List.mem_cons_of_mem _ hx)) _ ?_
    beta_reduce
    split
    · exact h j List.mem_cons_self
    · exact hone

theorem recovered_next_id (options : StoreOptions) (records : List Record) :
    (recovered options records).state.jobs.next_id =
      next_job_id (recovered options records).state.jobs := rfl

/-- Once a job is on record, only its erasure takes it out of the table. -/
theorem effects_keep_job {entries : List Entry} {i : Image} {id : JobId}
    (h : (i.jobs.find id).isSome = true) (herased : .job_erased id ∉ entries) :
    ((entries.foldl Image.effect i).jobs.find id).isSome = true := by
  induction entries generalizing i with
  | nil => exact h
  | cons e entries ih =>
    rw [List.foldl_cons]
    obtain ⟨hne, hrest⟩ := not_or.mp (fun hmem => herased (List.mem_cons.mpr hmem))
    refine ih ?_ hrest
    -- The other entries do not reach the job table, whether they pass their checks or not.
    cases e with
    | job j =>
      unfold Image.effect
      simp only
      split
      · exact h
      · rw [Table.find_put]
        split
        · rfl
        · exact h
    | job_erased other =>
      unfold Image.effect
      simp only
      split
      · have hother : other ≠ id := by
          rintro rfl
          exact hne rfl
        rw [Table.find_erase, if_neg hother]
        exact h
      · exact h
    | topology t =>
      unfold Image.effect
      simp only
      split <;> exact h
    | policy p =>
      unfold Image.effect
      simp only
      split <;> exact h
    | evidence r digest =>
      unfold Image.effect
      simp only
      split <;> exact h
    | reservation r digest =>
      unfold Image.effect
      simp only
      split <;> exact h
    | reservation_erased other =>
      unfold Image.effect
      simp only
      split <;> exact h
    | lease l =>
      unfold Image.effect
      simp only
      split <;> exact h
    | lease_erased other =>
      unfold Image.effect
      simp only
      split <;> exact h
    | quarantine q digest =>
      unfold Image.effect
      simp only
      split <;> exact h
    | boot incarnation prior =>
      unfold Image.effect
      simp only
      split <;> exact h

/-! ### Counters that fit -/

end Store

/-- The identities in a record that move a counter are not the last ones. -/
def Entry.spare : Entry → Prop
  | .job j => (Issued.job j.id).spare
  | .reservation r _ => (Issued.authority r.id).spare
  | .quarantine q _ => (Issued.quarantine q.id).spare
  | _ => True

namespace Store

theorem spare_of_decodes {e : Entry} (hmachine : e.machine) (hspare : e.spare) {i : Issued}
    (h : Decodes e.record i) : i.spare := by
  cases i with
  | job id => exact h.elim
  | authority id =>
    obtain ⟨htype, r', digest', hdecode, rfl⟩ := h
    cases e with
    | reservation r digest =>
      rw [Entry.record, decode_encode_reservation hmachine] at hdecode
      obtain ⟨_, _, hsame⟩ := Result.bind_eq_ok.mp hdecode
      cases hsame
      exact hspare
    | _ => cases htype
  | quarantine id =>
    obtain ⟨htype, q', digest', hdecode, rfl⟩ := h
    cases e with
    | quarantine q digest =>
      rw [Entry.record, decode_encode_quarantine hmachine] at hdecode
      obtain ⟨_, _, hsame⟩ := Result.bind_eq_ok.mp hdecode
      cases hsame
      exact hspare
    | _ => cases htype

theorem fit_visits {entries : List Entry} (hmachine : ∀ e ∈ entries, e.machine)
    (hspare : ∀ e ∈ entries, e.spare) {s : Store} (h : s.allocators.Fit) :
    ((entries.map Entry.record).foldl visit s).allocators.Fit := by
  induction entries generalizing s with
  | nil => exact h
  | cons e entries ih =>
    refine ih (fun x hx => hmachine x (List.mem_cons_of_mem _ hx))
      (fun x hx => hspare x (List.mem_cons_of_mem _ hx)) ?_
    obtain hsame | ⟨i, hdecodes, -, hpast⟩ := s.counters_apply e.record
      (decide (e.record.type = .Topology) || decide (e.record.type = .Policy))
    · exact hsame.symm ▸ h
    · exact hpast.symm ▸ h.past
        (spare_of_decodes (hmachine e List.mem_cons_self) (hspare e List.mem_cons_self) hdecodes)

/-- A job that is on record has come with an entry. -/
theorem effects_job_from {entries : List Entry} {i : Image} {row : MaintenanceJob}
    (h : row ∈ (entries.foldl Image.effect i).jobs.rows) :
    row ∈ i.jobs.rows ∨ ∃ j, .job j ∈ entries ∧ row.id = j.id := by
  induction entries generalizing i with
  | nil => exact .inl h
  | cons e entries ih =>
    obtain hold | ⟨j, hj, hid⟩ := ih h
    · have hrest : ∀ j, .job j ∈ [e] → row.id = j.id →
          row ∈ i.jobs.rows ∨ ∃ j, .job j ∈ e :: entries ∧ row.id = j.id := by
        intro j hj hid
        exact .inr ⟨j, List.mem_cons.mpr (.inl (List.mem_singleton.mp hj)), hid⟩
      -- Only a job entry adds a row; an erasure takes one, and the others keep the table.
      cases e with
      | job j =>
        simp only [Image.effect] at hold
        split at hold
        · exact .inl hold
        · next image himage =>
          rcases Table.mem_put.mp hold with rfl | ⟨hold, -⟩
          · refine hrest j List.mem_cons_self ?_
            rw [(recorded_job_ok himage).1]
            rfl
          · exact .inl hold
      | job_erased other =>
        simp only [Image.effect] at hold
        split at hold
        · exact .inl (Table.mem_erase.mp hold).1
        · exact .inl hold
      | topology _ | policy _ | evidence _ _ | reservation _ _ | reservation_erased _ | lease _
      | lease_erased _ | quarantine _ _ | boot _ _ =>
        simp only [Image.effect] at hold
        split at hold <;> exact .inl hold
    · exact .inr ⟨j, List.mem_cons_of_mem _ hj, hid⟩

/-- The store that is opened on such entries counts within 64 bits. -/
theorem fit_recovered {entries : List Entry} (hmachine : ∀ e ∈ entries, e.machine)
    (hspare : ∀ e ∈ entries, e.spare) (options : StoreOptions) :
    (recovered options (entries.map Entry.record)).allocators.Fit := by
  have hone : 1 < u64_range := by decide
  have hfresh : (fresh options).allocators.Fit := ⟨hone, hone, hone⟩
  have hvisits := fit_visits hmachine hspare hfresh
  refine ⟨?_, hvisits.authorities, hvisits.quarantines⟩
  refine next_job_id_fits ?_
  intro row hrow
  have himage := congrArg Image.jobs (image_recovered options hmachine)
  change row ∈ (recovered options (entries.map Entry.record)).image.jobs.rows at hrow
  rw [himage] at hrow
  obtain hnone | ⟨j, hj, hid⟩ := effects_job_from hrow
  · cases hnone
  · rw [hid]
    exact hspare _ hj

end Store

/-! ## Sessions -/

namespace Session

/-- The frames of the journal file are numbered from 1 without a gap and carry the entries. -/
def Carries (s : Session) (entries : List Entry) : Prop :=
  (∃ next, Intact 1 (s.journal.file.drop kFileHeaderBytes) next (entries.map Entry.record)) ∧
    ∀ e ∈ entries, e.machine

/-- The store that is opened on the file is the one the entries leave. -/
theorem opened_of_carries {s : Session} {entries : List Entry} (h : s.Carries entries)
    {options : StoreOptions} {journal : Journal} {store : Store}
    (hopen : Store.open options (some s.journal.file) = .ok (journal, store)) :
    store = Store.recovered options (entries.map Entry.record) := by
  obtain ⟨⟨next, hintact⟩, -⟩ := h
  obtain ⟨hvisited, -⟩ := hintact.replay_frames []
  rw [List.append_nil, Journal.replay_frames_nil, List.append_nil] at hvisited
  rw [Store.open_eq, Result.bind_eq_ok] at hopen
  obtain ⟨⟨j, stats, records⟩, hreopen, hstore⟩ := hopen
  obtain ⟨opened, hopened, hreplay⟩ := Result.bind_eq_ok.mp hreopen
  have hrecords : records = entries.map Entry.record := by
    rw [open_ok hopened] at hreplay
    unfold replay at hreplay
    split at hreplay
    · cases hreplay
    · cases hreplay
      exact hvisited
  cases hstore
  rw [hrecords]

theorem carries_on {options : JournalOptions} {log : List (List Entry)} {s : Store}
    {handed : List Issued} (hadm : ∀ entries ∈ log, admit_transaction entries = .ok ())
    (h : ∀ e ∈ log.flatten, e.machine) : (on options log s handed).Carries log.flatten := by
  have hnil : Intact 1 [] 1 [] := .nil
  have hlaid := hnil.laid (Store.transaction_calls_admissible hadm)
  rw [List.nil_append, List.nil_append, Store.committed_log] at hlaid
  have hdrop : (on options log s handed).journal.file.drop kFileHeaderBytes =
      laid 1 (log.map transaction_call) := List.drop_left' rfl
  rw [← hdrop] at hlaid
  exact ⟨⟨_, hlaid⟩, h⟩

end Session

namespace Issued

/-- Some record that decodes mentions an identity at least as large: that of a job that was not
    erased after it, or of a reservation or quarantine, erased or not. -/
def recorded (entries : List Entry) : Issued → Prop
  | .job id => ∃ before j after, entries = before ++ .job j :: after ∧ id ≤ j.id ∧
      check_job_record j = .ok () ∧ .job_erased j.id ∉ after
  | .authority id => ∃ r digest, .reservation r digest ∈ entries ∧ id ≤ r.id ∧
      check_reservation_record r = .ok ()
  | .quarantine id => ∃ q digest, .quarantine q digest ∈ entries ∧ id ≤ q.id ∧
      check_quarantine_record q = .ok ()

theorem below_of_recorded {entries : List Entry} (h : ∀ e ∈ entries, e.machine)
    (options : StoreOptions) {i : Issued} (hi : i.recorded entries) :
    i.below (Store.recovered options (entries.map Entry.record)).allocators := by
  cases i with
  -- A job has to be on record still, as its allocator is put behind the rows that are.
  | job id =>
    obtain ⟨before, j, after, rfl, hle, hcheck, herased⟩ := hi
    have himage := Store.image_recovered options h
    have hkept : ((Store.recovered options
        ((before ++ .job j :: after).map Entry.record)).image.jobs.find j.id).isSome = true := by
      rw [himage, List.foldl_append, List.foldl_cons]
      refine Store.effects_keep_job ?_ herased
      simp only [Image.effect, recorded_job, hcheck, Result.ok_bind]
      rw [Table.find_put, if_pos (show (clipped_job j).id = j.id from rfl)]
      rfl
    obtain ⟨row, hrow⟩ := Option.isSome_iff_exists.mp hkept
    obtain ⟨hmem, hkey⟩ := Table.find_eq_some_iff.mp hrow
    have hlt := Store.lt_next_job_id hmem
    rw [hkey] at hlt
    exact lt_of_le_of_lt hle hlt
  -- The other two only have to be seen by the replay, whatever is erased later.
  | authority id =>
    obtain ⟨r, digest, hmem, hle, hcheck⟩ := hi
    refine lt_of_le_of_lt hle ?_
    exact Store.visits_pass (P := fun a => r.id < a.authorities) hmem
      (fun hadvances hlt => lt_of_lt_of_le hlt hadvances.authorities)
      (fun s => Store.visit_reservation s (h _ hmem) digest hcheck) _
  | quarantine id =>
    obtain ⟨q, digest, hmem, hle, hcheck⟩ := hi
    refine lt_of_le_of_lt hle ?_
    exact Store.visits_pass (P := fun a => q.id < a.quarantines) hmem
      (fun hadvances hlt => lt_of_lt_of_le hlt hadvances.quarantines)
      (fun s => Store.visit_quarantine s (h _ hmem) digest hcheck) _

end Issued

namespace Session

/-- The journal file still mentions every identity handed out so far, or a larger one, and none
    that is the last. -/
def Recalls (s : Session) : Prop :=
  ∃ entries, s.Carries entries ∧ (∀ e ∈ entries, e.spare) ∧ ∀ i ∈ s.issued, i.recorded entries

/-- The condition on a run: no call moves a counter past the last identity of 64 bits, and the file
    a process leaves recalls its identities. -/
def keeps_count (s : Session) : SessionEvent → Prop
  | .call _ c => ∀ i ∈ s.store.reaches c, i.spare
  | .reopen _ => s.Recalls
  | _ => True

/-- What has been handed out is distinct and behind the counters, which have not run over. -/
structure Distinct (s : Session) : Prop where
  nodup : s.issued.Nodup
  below : ∀ i ∈ s.issued, i.below s.store.allocators
  fit : s.store.allocators.Fit

theorem distinct_called {s : Session} (h : s.Distinct) (verdicts : List (Option JournalFault))
    {c : StoreCall} (hreach : ∀ i ∈ s.store.reaches c, i.spare) (journal : Journal) :
    Distinct { journal, store := (s.called verdicts c).2
               issued := s.issued ++ (s.called verdicts c).1 } := by
  have hcall : Store.Allocates { s.store with verdicts, log := [] } (s.store.reaches c)
      (s.called verdicts c) := Store.call_allocates _ c
  refine ⟨?_, ?_, hcall.fit h.fit hreach⟩
  · refine List.Nodup.append h.nodup ?_ ?_
    · have hsingle := hcall.single
      generalize (s.called verdicts c).1 = handed at hsingle ⊢
      rcases handed with _ | ⟨i, _ | ⟨k, rest⟩⟩
      · exact List.nodup_nil
      · exact List.nodup_singleton i
      · simp at hsingle
    · -- what is handed out now was not behind its counter before
      intro i hold hnew
      exact Issued.not_below_of_next (hcall.handed i hnew).1 (h.below i hold)
  · intro i hi
    rcases List.mem_append.mp hi with hold | hnew
    · exact Issued.below_of_advances hcall.advances (h.below i hold)
    · exact hcall.handed_below i hnew

theorem distinct_step (s : Session) (e : SessionEvent) (he : s.keeps_count e)
    (h : s.Distinct) : (s.step e).Distinct := by
  cases e with
  | call verdicts c =>
    unfold step
    simp only
    split
    · exact h
    · exact distinct_called h verdicts he _
  -- A compaction rewrites the journal and leaves the counters in memory.
  | compact prior now =>
    unfold step
    simp only
    split
    · exact h
    · exact ⟨h.nodup, h.below, h.fit⟩
  -- The counters of the store that is opened are ahead of all that the journal recalls.
  | reopen options =>
    obtain ⟨entries, hcarries, hspare, hrecorded⟩ := he
    unfold step
    simp only
    split
    · exact h
    · next journal store hopen =>
      have hstore := opened_of_carries hcarries hopen
      refine ⟨h.nodup, ?_, ?_⟩
      · intro i hi
        rw [hstore]
        exact Issued.below_of_recorded hcarries.2 options (hrecorded i hi)
      · rw [hstore]
        exact Store.fit_recovered hcarries.2 hspare options

/-- In every run that starts with counters of 64 bits, never moves one past the last identity, and
    reopens only journals which recall the identities handed out before, no identity is handed out
    twice, and no counter runs over. -/
theorem identities_unique {options : StoreOptions} {disk : Option Text} {s : Session}
    (hopen : Opens options disk s) (hfit : s.store.allocators.Fit) {events : List SessionEvent}
    (hrun : Along step keeps_count s events) :
    (s.run events).issued.Nodup ∧ (s.run events).store.allocators.Fit := by
  have hstart : s.Distinct := by
    rw [Opens] at hopen
    refine ⟨?_, ?_, hfit⟩
    · rw [hopen.2]
      exact List.nodup_nil
    · rw [hopen.2]
      intro i hi
      cases hi
  have hdistinct := hrun.invariant distinct_step hstart
  exact ⟨hdistinct.nodup, hdistinct.fit⟩

end Session

/-! ### One job at a time -/

namespace Numbers

def options : StoreOptions := { journal_path := text "journal" }

def request : MaintenanceJob :=
  { title := text "switch", targets := [{ kind := .Switch, index := 1 }], generation := ⟨1⟩ }

/-- The job as it is stored first. -/
def first : MaintenanceJob := { request with id := ⟨1⟩, revision := ⟨1⟩ }

/-- A process on an empty journal. -/
def start : Session := Session.on options.journal [] (Store.recovered options []) []

theorem start_opens : Session.Opens options none start :=
  ⟨Store.open_created (by decide) rfl, rfl⟩

theorem create_admitted : ∀ entries ∈ [[Entry.job first]], admit_transaction entries = .ok () := by
  intro entries hentries
  rw [List.mem_singleton.mp hentries]
  rfl

theorem step_create : start.step (.call [] (.create_job request)) =
    Session.on options.journal [[.job first]]
      ((Store.recovered options []).call (.create_job request)).2 [.job ⟨1⟩] :=
  Session.step_call_on rfl rfl create_admitted (by decide) (by decide)

theorem create_machine : ∀ e ∈ [Entry.job first], e.machine := by
  intro e he
  rw [List.mem_singleton.mp he]
  constructor <;> first | decide | exact ⟨by decide, by intro x hx; cases hx⟩

/-- The file after the first call still knows the job. -/
theorem create_recalls : (start.step (.call [] (.create_job request))).Recalls := by
  rw [step_create]
  refine ⟨[.job first], Session.carries_on create_admitted create_machine, ?_, ?_⟩
  · intro e he
    rw [List.mem_singleton.mp he]
    exact (by decide : (Issued.job first.id).spare)
  intro i hi
  rw [List.mem_singleton.mp hi]
  exact ⟨[], first, [], rfl, le_refl _, rfl, List.not_mem_nil⟩

/-- The store that is opened on the first job counts on from 2. -/
theorem recovered_first :
    (Store.recovered options ([Entry.job first].map Entry.record)).state.jobs.next_id = ⟨2⟩ := by
  have himage := congrArg Image.jobs (Store.image_recovered options create_machine)
  rw [Store.recovered_next_id]
  generalize Store.recovered options ([Entry.job first].map Entry.record) = s at himage ⊢
  have hjobs : s.state.jobs.jobs = Table.empty.put (clipped_job first) := himage
  unfold Store.next_job_id
  rw [hjobs]
  rfl

/-- The transactions of a job that is created and erased again. -/
def forgotten : List (List Entry) := [[.job first], [.job_erased ⟨1⟩]]

theorem forgotten_admitted : ∀ entries ∈ forgotten, admit_transaction entries = .ok () := by
  intro entries hentries
  rcases List.mem_cons.mp hentries with rfl | hentries
  · rfl
  · rw [List.mem_singleton.mp hentries]
    rfl

theorem step_erase : (start.step (.call [] (.create_job request))).step
    (.call [] (.commit_job_erased ⟨1⟩)) = Session.on options.journal forgotten
      ({ ((Store.recovered options []).call (.create_job request)).2 with
        verdicts := [], log := [] }.call (.commit_job_erased ⟨1⟩)).2 [.job ⟨1⟩] := by
  rw [step_create]
  exact Session.step_call_on rfl rfl forgotten_admitted (by decide) (by decide)

theorem forgotten_machine : ∀ e ∈ forgotten.flatten, e.machine := by
  intro e he
  rcases List.mem_cons.mp he with rfl | he
  · exact create_machine _ List.mem_cons_self
  · rw [List.mem_singleton.mp he]
    exact (by decide : (⟨1⟩ : JobId).machine)

/-- The store that is opened on these transactions has no job and counts from 1 again. -/
theorem recovered_forgotten :
    ∃ s, s = Store.recovered options (forgotten.flatten.map Entry.record) ∧
    s.state.jobs = {} := by
  have hempty := congrArg Image.jobs (Store.image_recovered options forgotten_machine)
  have hnext := Store.recovered_next_id options (forgotten.flatten.map Entry.record)
  refine ⟨_, rfl, ?_⟩
  generalize Store.recovered options (forgotten.flatten.map Entry.record) = s at hempty hnext ⊢
  have hjobs : s.state.jobs.jobs = Table.empty := hempty
  cases htable : s.state.jobs with
  | mk jobs next =>
    rw [htable] at hjobs hnext
    simp only at hjobs hnext
    rw [hjobs] at hnext ⊢
    rw [hnext]
    rfl

/-- On a store without jobs the request becomes job 1. -/
theorem create_on_empty {s : Store} (h : s.state.jobs = {}) :
    ({ s with verdicts := [], log := [] }.call (.create_job request)).1 = [.job ⟨1⟩] ∧
      ({ s with verdicts := [], log := [] }.call (.create_job request)).2.log = [[.job first]] := by
  obtain ⟨⟨topology, policy, jobs, evidence, ledger, quarantines, leases, last, epoch⟩,
    sequence, verdicts, log, digests⟩ := s
  simp only at h
  subst h
  exact ⟨rfl, rfl⟩

end Numbers

namespace Session

/-- A job, a restart, and another job. -/
theorem two_jobs_distinct : (Numbers.start.run [.call [] (.create_job Numbers.request),
    .reopen Numbers.options, .call [] (.create_job Numbers.request)]).issued.Nodup := by
  have hfit : Numbers.start.store.allocators.Fit := ⟨by decide, by decide, by decide⟩
  have hcreate : Numbers.start.keeps_count (.call [] (.create_job Numbers.request)) := by
    rintro _ ⟨⟩
    decide
  have hagain : ((Numbers.start.step (.call [] (.create_job Numbers.request))).step
      (.reopen Numbers.options)).keeps_count (.call [] (.create_job Numbers.request)) := by
    rw [Numbers.step_create, step_reopen_on (by decide) Numbers.create_admitted]
    have hflat : [[Entry.job Numbers.first]].flatten = [Entry.job Numbers.first] := rfl
    have hnext := Numbers.recovered_first
    rw [hflat]
    generalize Store.recovered Numbers.options ([Entry.job Numbers.first].map Entry.record) =
      reopened at hnext ⊢
    intro i hi
    have hi : Issued.job reopened.state.jobs.next_id = i := Option.some.inj hi
    rw [hnext] at hi
    rw [← hi]
    decide
  have hrun : Along step keeps_count Numbers.start [.call [] (.create_job Numbers.request),
      .reopen Numbers.options, .call [] (.create_job Numbers.request)] :=
    ⟨hcreate, Numbers.create_recalls, hagain, trivial⟩
  exact (identities_unique Numbers.start_opens hfit hrun).1

/-- A job that is erased before the restart: the next job gets its identity. -/
theorem erased_job_identity_reused : Opens Numbers.options none Numbers.start ∧
    ¬ (Numbers.start.run [.call [] (.create_job Numbers.request),
      .call [] (.commit_job_erased ⟨1⟩), .reopen Numbers.options,
      .call [] (.create_job Numbers.request)]).issued.Nodup := by
  obtain ⟨s, hs, hempty⟩ := Numbers.recovered_forgotten
  obtain ⟨hanswer, hlog⟩ := Numbers.create_on_empty hempty
  have hadm : ∀ entries ∈ Numbers.forgotten ++ [[.job Numbers.first]],
      admit_transaction entries = .ok () := by
    intro entries hentries
    rcases List.mem_append.mp hentries with hold | hnew
    · exact Numbers.forgotten_admitted entries hold
    · exact Numbers.create_admitted entries hnew
  have hpath : Numbers.options.journal_path ≠ [] := by decide
  have hreopen := step_reopen_on hpath Numbers.forgotten_admitted
    ({ ((Store.recovered Numbers.options []).call (.create_job Numbers.request)).2 with
      verdicts := [], log := [] }.call (.commit_job_erased ⟨1⟩)).2 [.job ⟨1⟩]
  rw [← hs] at hreopen
  have hcreate : (on Numbers.options.journal Numbers.forgotten s [.job ⟨1⟩]).step
      (.call [] (.create_job Numbers.request)) = _ :=
    step_call_on rfl hlog hadm (by decide) (by decide)
  rw [hanswer] at hcreate
  refine ⟨Numbers.start_opens, ?_⟩
  rw [run_cons, run_cons, run_cons, run_cons, run_nil, Numbers.step_erase, hreopen, hcreate]
  have hissued : ([.job ⟨1⟩] ++ [.job ⟨1⟩] : List Issued).Nodup ↔ False := by decide
  exact hissued.mp

end Session

end MaintenanceFabric
