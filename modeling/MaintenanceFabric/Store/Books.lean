import MaintenanceFabric.Store.Store

/-! # The books of the store

    Jobs, ledger and evidence are the three tables the runtime's guarantees
    are about; the boot epoch tells its incarnations apart.  For each store
    operation this file says what it does to them: nothing, or one named
    update.  Later files never unfold a store operation.
-/

namespace MaintenanceFabric

open Lib

structure Books where
  jobs : Table MaintenanceJob.id
  ledger : AuthorityLedger
  evidence : EvidenceStore
  epoch : BootEpoch

namespace Store

def books (s : Store) : Books :=
  ⟨s.state.jobs.jobs, s.state.ledger, s.state.evidence, s.state.boot_epoch⟩

theorem books_of_state_eq {s s' : Store} (h : s'.state = s.state) : s'.books = s.books := by
  unfold books
  rw [h]

/-! ## The journal boundary -/

/-- With nothing listed the journal accepts what it admits, and stays that way. -/
theorem append_transaction_of_verdicts_nil {s : Store} {entries : List Entry} (h : s.verdicts = [])
    (hadm : admit_transaction entries = .ok ()) :
    s.append_transaction entries = (ok_status, { s with log := s.log ++ [entries] }) := by
  have hnext : s.next_verdict = (none, s) := by
    unfold next_verdict
    rw [h]
  unfold append_transaction
  rw [hadm, hnext]

theorem append_and_flush_of_verdicts_nil {s : Store} {entries : List Entry} (h : s.verdicts = [])
    (hadm : admit_transaction entries = .ok ()) :
    s.append_and_flush entries = (ok_status, { s with log := s.log ++ [entries] }) := by
  have hentries : check_entries entries = .ok () := by
    unfold admit_transaction at hadm
    simp only [Result.bind_eq_ok] at hadm
    obtain ⟨_, _, _, _, _, hentries, _⟩ := hadm
    exact hentries
  unfold append_and_flush
  rw [hentries, append_transaction_of_verdicts_nil h hadm]
  simp [ok_status, flush, next_verdict, h]

/-- A single small record is admitted. -/
theorem admit_single {e : Entry} (h : e.size ≤ 4000000) : admit_transaction [e] = .ok () := by
  have hsize : decide (e.size > limits.kMaxJournalRecordBytes) = false := by
    apply decide_eq_false
    simp only [limits.kMaxJournalRecordBytes]
    omega
  have htotal : decide (transaction_size [e] > limits.kMaxJournalRecordBytes) = false := by
    apply decide_eq_false
    simp only [transaction_size, limits.kMaxJournalRecordBytes, List.map_cons, List.map_nil,
      List.sum_cons, List.sum_nil]
    omega
  simp only [admit_transaction, check_entries, List.any_cons, List.any_nil, hsize, htotal]
  rfl

/-- Refused writes are about the journal's bounds or its file. -/
theorem append_transaction_refusal {s s' : Store} {entries : List Entry} {e : Error}
    (h : s.append_transaction entries = (.error e, s')) :
    e.code = .InvalidArgument ∨ e.code = .LimitExceeded ∨ e.code = .IoError := by
  unfold append_transaction at h
  split at h
  · next hadm =>
    cases h
    unfold admit_transaction check_entries at hadm
    cases h1 : entries.isEmpty <;>
      cases h2 : decide (entries.length > limits.kMaxRecordsPerTransaction) <;>
      cases h3 : entries.any (fun e => decide (e.size > limits.kMaxJournalRecordBytes)) <;>
      cases h4 : decide (transaction_size entries > limits.kMaxJournalRecordBytes) <;>
      rw [h1, h2, h3, h4] at hadm <;> cases hadm <;> decide
  · split at h
    · cases h
    · next fault _ _ =>
      cases h
      cases fault <;> simp [JournalFault.error, make_error]

/-- In particular never about a revision. -/
theorem append_transaction_error {s s' : Store} {entries : List Entry} {e : Error}
    (h : s.append_transaction entries = (.error e, s')) : e.code ≠ .StaleRevision := by
  intro hcode
  have hrefusal := append_transaction_refusal h
  rw [hcode] at hrefusal
  simp at hrefusal

theorem append_and_flush_error {s s' : Store} {entries : List Entry} {e : Error}
    (h : s.append_and_flush entries = (.error e, s')) : e.code ≠ .StaleRevision := by
  unfold append_and_flush at h
  split at h
  · next hcheck =>
    cases h
    unfold check_entries refuse_if at hcheck
    split at hcheck
    · cases hcheck
      exact ErrorCode.noConfusion
    · cases hcheck
  · split at h
    · next happend =>
      cases h
      exact append_transaction_error happend
    · unfold flush at h
      split at h
      · cases h
      · cases h
        exact ErrorCode.noConfusion

/-! ### A journal that accepts everything goes on doing so -/

theorem verdicts_append_transaction {s : Store} (h : s.verdicts = []) (entries : List Entry) :
    (s.append_transaction entries).2.verdicts = [] := by
  unfold append_transaction next_verdict
  split
  · exact h
  · rw [h]
    exact h

theorem verdicts_of_append {s s' : Store} {entries : List Entry} {r : Status} (h : s.verdicts = [])
    (happend : s.append_transaction entries = (r, s')) : s'.verdicts = [] := by
  have ha := verdicts_append_transaction h entries
  rwa [happend] at ha

theorem verdicts_append_and_flush {s : Store} (h : s.verdicts = []) (entries : List Entry) :
    (s.append_and_flush entries).2.verdicts = [] := by
  unfold append_and_flush
  split
  · exact h
  · split
    · next happend => exact verdicts_of_append h happend
    · next happend =>
      have hv := verdicts_of_append h happend
      unfold flush next_verdict
      rw [hv]
      exact hv

theorem verdicts_commit_job {s : Store} (h : s.verdicts = []) (job : MaintenanceJob) :
    (s.commit_job job).2.verdicts = [] := by
  have hwritten := verdicts_append_and_flush h [.job job]
  unfold commit_job
  split
  · exact h
  · split
    · next happend =>
      rw [happend] at hwritten
      exact hwritten
    · next happend =>
      rw [happend] at hwritten
      split
      · exact hwritten
      · exact hwritten

theorem verdicts_install_ledger {s : Store} (h : s.verdicts = []) (entries : List Entry)
    (staging : AuthorityLedger) (digests : Digests) :
    (s.install_ledger entries staging digests).2.verdicts = [] := by
  unfold install_ledger
  split
  · next ha => exact verdicts_of_append h ha
  · next ha =>
    have hv := verdicts_of_append h ha
    exact hv

theorem verdicts_release_authority {s : Store} (h : s.verdicts = []) (id : AuthorityId)
    (current : ControllerIncarnation) : (s.release_authority id current).2.verdicts = [] := by
  unfold release_authority
  split
  · exact h
  · exact verdicts_install_ledger h _ _ _

theorem verdicts_renew_authority {s : Store} (h : s.verdicts = []) (id : AuthorityId)
    (attempt : AttemptId) (current : ControllerIncarnation) (extend now : Nanos) :
    (s.renew_authority id attempt current extend now).2.verdicts = [] := by
  unfold renew_authority
  split
  · exact h
  · split
    · exact h
    · exact verdicts_install_ledger h _ _ _

theorem verdicts_reserve_authority {s : Store} (h : s.verdicts = []) (r : AuthorityReservation) :
    (s.reserve_authority r).2.verdicts = [] := by
  unfold reserve_authority
  split
  · exact h
  · next granted staging _ =>
    have hinstalled := verdicts_install_ledger h
      [.reservation granted (reservation_digest granted)] staging
      (s.digests.with_reservation granted.id (reservation_digest granted))
    simp only
    split
    · next heq =>
      rw [heq] at hinstalled
      exact hinstalled
    · next heq =>
      rw [heq] at hinstalled
      exact hinstalled

theorem verdicts_insert_authority {s : Store} (h : s.verdicts = []) (r : AuthorityReservation) :
    (s.insert_authority r).2.verdicts = [] := by
  unfold insert_authority
  split
  · exact h
  · exact verdicts_install_ledger h _ _ _

theorem verdicts_commit_lease {s : Store} (h : s.verdicts = []) (lease : DrainLease) :
    (s.commit_lease lease).2.verdicts = [] := by
  unfold commit_lease
  split
  · next happend => exact verdicts_of_append h happend
  · next happend =>
    have hwritten := verdicts_of_append h happend
    exact hwritten

theorem verdicts_commit_lease_erased {s : Store} (h : s.verdicts = []) (id : DrainLeaseId) :
    (s.commit_lease_erased id).2.verdicts = [] := by
  unfold commit_lease_erased
  split
  · next happend => exact verdicts_of_append h happend
  · next happend =>
    have hwritten := verdicts_of_append h happend
    exact hwritten

theorem verdicts_quarantine_target {s : Store} (h : s.verdicts = []) (target : TargetId)
    (job : JobId) (generation : GenerationId) (reason : BlockReason) (detail : Text) (now : Nanos)
    (created_by : ControllerIncarnation) :
    (s.quarantine_target target job generation reason detail now created_by).2.verdicts = [] := by
  have hopen : (s.with_quarantines
      { s.state.quarantines with next_id := s.state.quarantines.next_id.next }).verdicts = [] := h
  unfold quarantine_target
  simp only
  split
  · exact h
  · split
    · next ha => exact verdicts_of_append hopen ha
    · next ha =>
      have hv := verdicts_of_append hopen ha
      exact hv

theorem verdicts_observe_evidence {s : Store} (h : s.verdicts = []) (record : EvidenceRecord) :
    (s.observe_evidence record).2.verdicts = [] := by
  unfold observe_evidence
  split
  · exact h
  · split
    · next ha => exact verdicts_of_append h ha
    · next ha =>
      have hv := verdicts_of_append h ha
      exact hv

/-- A record the evidence store takes is installed when the journal accepts. -/
theorem observe_evidence_ok {s : Store} {record : EvidenceRecord} {staging : EvidenceStore}
    (h : s.verdicts = []) (hok : s.state.evidence.observe record = .ok staging) :
    (s.observe_evidence record).2.state = { s.state with evidence := staging } := by
  have hsize : (Entry.evidence record 0).size ≤ 4000000 := show evidence_size ≤ 4000000 by decide
  unfold observe_evidence
  rw [hok]
  simp only
  rw [append_transaction_of_verdicts_nil h (admit_single hsize)]
  rfl

/-! ## Operations that leave the books alone -/

theorem books_append_transaction {s s' : Store} {entries : List Entry} {r : Status}
    (h : s.append_transaction entries = (r, s')) : s'.state = s.state := by
  have hq := quiet_append_transaction s entries
  rw [h] at hq
  exact hq.1

theorem books_append_and_flush {s s' : Store} {entries : List Entry} {r : Status}
    (h : s.append_and_flush entries = (r, s')) : s'.state = s.state := by
  have hq := quiet_append_and_flush s entries
  rw [h] at hq
  exact hq.1

@[simp] theorem books_commit_lease (s : Store) (lease : DrainLease) :
    (s.commit_lease lease).2.books = s.books := by
  unfold commit_lease
  split
  · next h => exact books_of_state_eq (books_append_transaction h)
  · next h =>
    have hs := books_append_transaction h
    simp [books, hs]

@[simp] theorem books_commit_lease_erased (s : Store) (id : DrainLeaseId) :
    (s.commit_lease_erased id).2.books = s.books := by
  unfold commit_lease_erased
  split
  · next h => exact books_of_state_eq (books_append_transaction h)
  · next h =>
    have hs := books_append_transaction h
    simp [books, hs]

@[simp] theorem books_quarantine_target (s : Store) (target : TargetId) (job : JobId)
    (generation : GenerationId) (reason : BlockReason) (detail : Text) (now : Nanos)
    (created_by : ControllerIncarnation) :
    (s.quarantine_target target job generation reason detail now created_by).2.books = s.books := by
  unfold quarantine_target
  simp only
  split
  · rfl
  · split
    · next h => exact (books_of_state_eq (books_append_transaction h)).trans rfl
    · next h =>
      have hs := books_append_transaction h
      simp [books, with_quarantines, hs]

@[simp] theorem books_commit_quarantine (s : Store) (record : QuarantineRecord) (digest : UInt64) :
    (s.commit_quarantine record digest).2.books = s.books := by
  unfold commit_quarantine
  simp only
  split
  · rfl
  · split
    · next h => exact books_of_state_eq (books_append_transaction h)
    · next h =>
      have hs := books_append_transaction h
      simp [books, with_quarantines, hs]

@[simp] theorem books_commit_topology (s : Store) (topology : Topology) :
    (s.commit_topology topology).2.books = s.books := by
  unfold commit_topology
  split
  · rfl
  · split
    · next h => exact books_of_state_eq (books_append_and_flush h)
    · next h =>
      have hs := books_append_and_flush h
      split <;> simp [books, hs]

@[simp] theorem books_commit_policy (s : Store) (policy : Policy) :
    (s.commit_policy policy).2.books = s.books := by
  unfold commit_policy
  split
  · rfl
  · split
    · next h => exact books_of_state_eq (books_append_and_flush h)
    · next h =>
      have hs := books_append_and_flush h
      split <;> simp [books, hs]

/-! ## Incarnations -/

/-- A claimed incarnation is one boot epoch later than anything before it. -/
theorem begin_incarnation_cases (s : Store) (controller : ControllerId) (nonce steady : Nat) :
    (∃ e, (s.begin_incarnation controller nonce steady).1 = .error e ∧
      (s.begin_incarnation controller nonce steady).2.books = s.books) ∨
    ∃ incarnation : ControllerIncarnation,
      (s.begin_incarnation controller nonce steady).1 = .ok incarnation ∧
      incarnation.boot_epoch = s.books.epoch.next ∧
      (s.begin_incarnation controller nonce steady).2.books =
        { s.books with epoch := incarnation.boot_epoch } := by
  unfold begin_incarnation
  split
  · exact .inl ⟨_, rfl, rfl⟩
  · simp only
    split
    · next h => exact .inl ⟨_, rfl, books_of_state_eq (books_append_and_flush h)⟩
    · next h =>
      have hs := books_append_and_flush h
      refine .inr ⟨_, rfl, ?_, by simp [books, hs]⟩
      simp only [books]
      split
      · rfl
      · next hinvalid =>
        have hzero : s.state.boot_epoch.value = 0 := by
          by_contra hne
          exact hinvalid (StrongId.valid_iff.mpr hne)
        exact StrongId.ext (by simp [hzero])

theorem verdicts_begin_incarnation {s : Store} (h : s.verdicts = []) (controller : ControllerId)
    (nonce steady : Nat) : (s.begin_incarnation controller nonce steady).2.verdicts = [] := by
  unfold begin_incarnation
  split
  · exact h
  · simp only
    split
    · next happend =>
      have hwritten := congrArg (fun x => x.2.verdicts) happend
      exact hwritten.symm.trans (verdicts_append_and_flush h _)
    · next happend =>
      have hwritten := congrArg (fun x => x.2.verdicts) happend
      exact hwritten.symm.trans (verdicts_append_and_flush h _)

theorem begin_incarnation_valid {s : Store} {controller : ControllerId} {nonce steady : Nat}
    {incarnation : ControllerIncarnation}
    (h : (s.begin_incarnation controller nonce steady).1 = .ok incarnation) :
    incarnation.valid = true := by
  unfold begin_incarnation at h
  split at h
  · cases h
  · next hvalid =>
    simp only at h
    split at h
    · cases h
    · cases h
      have hcontroller : controller.valid = true := by simpa using hvalid
      have hepoch : (if s.state.boot_epoch.valid then s.state.boot_epoch.next else ⟨1⟩ :
          BootEpoch).valid = true := by
        split
        · exact StrongId.valid_iff.mpr (Nat.succ_ne_zero _)
        · rfl
      have hnonce : (if nonce = 0 then (if steady = 0 then 1 else steady) else nonce) ≠ 0 := by
        split
        · split <;> omega
        · assumption
      simp only [ControllerIncarnation.valid, hcontroller, hepoch, Bool.true_and, Bool.and_true]
      exact bne_iff_ne.mpr hnonce

/-! ## Jobs -/

/-- A job commit either installs the job's image or changes nothing. -/
theorem commit_job_cases (s : Store) (job : MaintenanceJob) :
    (∃ e, (s.commit_job job).1 = .error e ∧ (s.commit_job job).2.books = s.books) ∨
    (s.commit_job job).1 = ok_status ∧ check_job_record job = .ok () ∧
      (s.commit_job job).2.books = { s.books with jobs := s.books.jobs.put (clipped_job job) } := by
  unfold commit_job
  split
  · next e _ => exact .inl ⟨e, rfl, rfl⟩
  · split
    · next h => exact .inl ⟨_, rfl, books_of_state_eq (books_append_and_flush h)⟩
    · next h =>
      have hs := books_append_and_flush h
      split
      · exact .inl ⟨_, rfl, books_of_state_eq hs⟩
      · next himage =>
        obtain ⟨rfl, hcheck⟩ := recorded_job_ok himage
        exact .inr ⟨rfl, hcheck, by simp [books, with_jobs, hs]⟩

/-- Without a fault, the next revision of a stored job whose record decodes is accepted. -/
theorem commit_job_ok {s : Store} {job stored : MaintenanceJob} (h : s.verdicts = [])
    (hfind : s.books.jobs.find job.id = some stored) (hrev : job.revision = stored.revision.next)
    (hrec : check_job_record job = .ok ()) : (s.commit_job job).1 = ok_status := by
  have hput : ∃ t, s.state.jobs.put job = .ok t := by
    unfold JobTable.put JobTable.find
    rw [show s.state.jobs.jobs.find job.id = some stored from hfind]
    simp [hrev]
  obtain ⟨t, ht⟩ := hput
  unfold commit_job
  have hsize : (Entry.job job).size ≤ 4000000 := Nat.le_trans (job_size_le hrec) (by decide)
  rw [ht, append_and_flush_of_verdicts_nil h (admit_single hsize)]
  simp [ok_status, recorded_job, hrec, bind, Except.bind]

/-- A creation either changes nothing or adds the job under an unused identity. -/
theorem create_job_cases (s : Store) (job : MaintenanceJob) :
    (s.create_job job).2.books = s.books ∨
    ∃ id : JobId, s.books.jobs.find id = none ∧
      check_job_record { job with id, revision := ⟨1⟩ } = .ok () ∧
      (s.create_job job).2.books =
        { s.books with
          jobs := s.books.jobs.put (clipped_job { job with id, revision := ⟨1⟩ }) } := by
  unfold create_job
  split
  · exact .inl rfl
  · simp only
    split
    · exact .inl rfl
    · next hinsert =>
      have hfresh : s.state.jobs.jobs.find s.state.jobs.next_id = none := by
        simp only [JobTable.insert, Result.bind_eq_ok, refuse_if_eq_ok] at hinsert
        obtain ⟨_, _, _, _, _, hnone, _⟩ := hinsert
        simpa [JobTable.find, with_jobs] using hnone
      split
      · next h => exact .inl ((books_of_state_eq (books_append_and_flush h)).trans rfl)
      · next h =>
        have hs := books_append_and_flush h
        split
        · exact .inl ((books_of_state_eq hs).trans rfl)
        · next himage =>
          obtain ⟨rfl, hcheck⟩ := recorded_job_ok himage
          exact .inr ⟨_, hfresh, hcheck, by simp [books, with_jobs, hs]⟩

/-! ### Several jobs at once -/

theorem put_of_ok {table table' : JobTable} {job : MaintenanceJob}
    (h : table.put job = .ok table') :
    table' = { table with jobs := table.jobs.put job } := by
  unfold JobTable.put at h
  split at h
  · cases h
  · split at h
    · cases h
    · exact (Except.ok.inj h).symm

/-- A row of another identity survives a put. -/
theorem mem_put_of_ne {t : Table MaintenanceJob.id} {job o : MaintenanceJob}
    (h : o ∈ (t.put job).rows) (hne : o.id ≠ job.id) : o ∈ t.rows := by
  rcases Table.mem_put.mp h with rfl | ⟨ho, _⟩
  · exact absurd rfl hne
  · exact ho

/-- What `put_all` remembers are stored rows of the jobs it replaces, whether it ends well or
    not. -/
theorem put_all_previous : ∀ {jobs : List MaintenanceJob} {table : JobTable}
    {previous remembered : List MaintenanceJob}, (jobs.map MaintenanceJob.id).Nodup →
    ((∃ e, put_all table previous jobs = .error (e, remembered)) ∨
      ∃ table', put_all table previous jobs = .ok (table', remembered)) →
    ∃ olds, remembered = previous ++ olds ∧ ∀ o ∈ olds, o ∈ table.jobs.rows ∧
      o.id ∈ jobs.map MaintenanceJob.id
  | [], table, previous, remembered, _, h => by
      rcases h with ⟨e, h⟩ | ⟨table', h⟩
      · cases h
      · cases h
        exact ⟨[], by simp, by simp⟩
  | job :: jobs, table, previous, remembered, hnd, h => by
      obtain ⟨hnot, hnd⟩ := List.nodup_cons.mp hnd
      unfold put_all at h
      cases hf : table.find job.id with
      | none =>
        simp only [hf] at h
        rcases h with ⟨e, h⟩ | ⟨table', h⟩
        · cases h
          exact ⟨[], by simp, by simp⟩
        · cases h
      | some existing =>
        have hmem : existing ∈ table.jobs.rows := Table.mem_of_find hf
        have hid : existing.id = job.id := Table.key_of_find hf
        cases hp : table.put job with
        | error e' =>
          simp only [hf, hp] at h
          rcases h with ⟨e, h⟩ | ⟨table', h⟩
          · cases h
            exact ⟨[existing], rfl, by simp [hmem, hid]⟩
          · cases h
        | ok next =>
          simp only [hf, hp] at h
          -- The ids differ, so what is remembered later was not put here.
          obtain ⟨olds, rfl, holds⟩ := put_all_previous hnd h
          refine ⟨existing :: olds, by simp, ?_⟩
          intro o ho
          rcases List.mem_cons.mp ho with rfl | ho
          · exact ⟨hmem, by simp [hid]⟩
          · obtain ⟨hrow, hin⟩ := holds o ho
            rw [put_of_ok hp] at hrow
            have hne : o.id ≠ job.id := fun e => hnot (e ▸ hin)
            exact ⟨mem_put_of_ne hrow hne, List.mem_cons_of_mem _ hin⟩

/-- A successful `put_all` has put every job, and remembers a row for each of them. -/
theorem put_all_ok : ∀ {jobs : List MaintenanceJob} {table table' : JobTable}
    {previous previous' : List MaintenanceJob},
    put_all table previous jobs = .ok (table', previous') →
    table'.jobs = jobs.foldl Table.put table.jobs ∧ (∀ o ∈ previous, o ∈ previous') ∧
      ∀ j ∈ jobs, ∃ o ∈ previous', o.id = j.id
  | [], table, table', previous, previous', h => by
      cases h
      simp
  | job :: jobs, table, table', previous, previous', h => by
      unfold put_all at h
      cases hf : table.find job.id with
      | none =>
        simp only [hf] at h
        cases h
      | some existing =>
        cases hp : table.put job with
        | error e' =>
          simp only [hf, hp] at h
          cases h
        | ok next =>
          simp only [hf, hp] at h
          obtain ⟨hjobs, hkeep, hall⟩ := put_all_ok h
          rw [put_of_ok hp] at hjobs
          refine ⟨hjobs, fun o ho => hkeep o (List.mem_append_left _ ho), ?_⟩
          intro j hj
          rcases List.mem_cons.mp hj with rfl | hj
          · exact ⟨existing, hkeep existing (by simp), Table.key_of_find hf⟩
          · exact hall j hj

theorem recorded_jobs_ok : ∀ {jobs images : List MaintenanceJob},
    recorded_jobs jobs = .ok images →
    images = jobs.map clipped_job ∧ ∀ j ∈ jobs, check_job_record j = .ok ()
  | [], images, h => by
      have : images = [] := by simpa [recorded_jobs, pure, Except.pure] using h.symm
      simp [this]
  | job :: jobs, images, h => by
      unfold recorded_jobs at h
      rw [List.mapM_cons] at h
      obtain ⟨image, himage, h⟩ := Result.bind_eq_ok.mp h
      obtain ⟨rest, hrest, h⟩ := Result.bind_eq_ok.mp h
      cases h
      obtain ⟨rfl, hcheck⟩ := recorded_job_ok himage
      obtain ⟨rfl, hchecks⟩ := recorded_jobs_ok hrest
      refine ⟨rfl, ?_⟩
      intro j hj
      rcases List.mem_cons.mp hj with rfl | hj
      · exact hcheck
      · exact hchecks j hj

/-- Putting back one row per replaced job undoes the puts. -/
theorem roll_back_put_all {jobs previous : List MaintenanceJob} {t : Table MaintenanceJob.id}
    (hrows : ∀ o ∈ previous, o ∈ t.rows) (hall : ∀ j ∈ jobs, ∃ o ∈ previous, o.id = j.id) :
    previous.foldl Table.put (jobs.foldl Table.put t) = t := by
  apply Table.ext_find
  intro k
  rcases Table.find_foldl_put_cases previous (jobs.foldl Table.put t) k with
    ⟨o, ho, rfl, hfind⟩ | ⟨hnot, hfind⟩
  · rw [hfind, Table.find_iff_mem.mpr (hrows o ho)]
  · rw [hfind]
    rcases Table.find_foldl_put_cases jobs t k with ⟨j, hj, rfl, -⟩ | ⟨-, hkeep⟩
    · obtain ⟨o, ho, hoj⟩ := hall j hj
      exact absurd hoj (hnot o ho)
    · exact hkeep

/-- Installing the images over the jobs they are images of is installing the images. -/
theorem put_images (jobs : List MaintenanceJob) (t : Table MaintenanceJob.id) :
    (jobs.map clipped_job).foldl Table.put (jobs.foldl Table.put t) =
      (jobs.map clipped_job).foldl Table.put t := by
  apply Table.foldl_put_base
  intro k hk
  rcases Table.find_foldl_put_cases jobs t k with ⟨j, hj, rfl, -⟩ | ⟨-, hkeep⟩
  · exact absurd rfl (hk (clipped_job j) (List.mem_map_of_mem hj))
  · exact hkeep

/-- All jobs are committed, or none is. -/
theorem commit_jobs_cases (s : Store) {jobs : List MaintenanceJob}
    (hnd : (jobs.map MaintenanceJob.id).Nodup) :
    (∃ e, (s.commit_jobs jobs).1 = .error e ∧ (s.commit_jobs jobs).2.books = s.books) ∨
    (s.commit_jobs jobs).1 = ok_status ∧ (∀ j ∈ jobs, check_job_record j = .ok ()) ∧
      (s.commit_jobs jobs).2.books =
        { s.books with jobs := (jobs.map clipped_job).foldl Table.put s.books.jobs } := by
  unfold commit_jobs
  split
  · exact .inl ⟨_, rfl, rfl⟩
  · cases hput : put_all s.state.jobs [] jobs with
    | error r =>
      obtain ⟨e, previous⟩ := r
      obtain ⟨olds, hp, holds⟩ := put_all_previous hnd (.inl ⟨e, hput⟩)
      simp only [List.nil_append] at hp
      subst hp
      refine .inl ⟨e, rfl, ?_⟩
      simp [books, with_jobs, roll_back, Table.foldl_put_of_subset (fun o ho => (holds o ho).1)]
    | ok r =>
      obtain ⟨table, previous⟩ := r
      obtain ⟨olds, hp, holds⟩ := put_all_previous hnd (.inr ⟨table, hput⟩)
      simp only [List.nil_append] at hp
      subst hp
      obtain ⟨hjobs, -, hall⟩ := put_all_ok hput
      -- Distinct ids, so the rollback puts back the very rows that were replaced.
      have hback : previous.foldl Table.put table.jobs = s.state.jobs.jobs := by
        rw [hjobs]
        exact roll_back_put_all (fun o ho => (holds o ho).1) hall
      simp only
      split
      · next h =>
        have hs := books_append_and_flush h
        exact .inl ⟨_, rfl, by simp [books, with_jobs, roll_back, hback, hs]⟩
      · next h =>
        have hs := books_append_and_flush h
        split
        · exact .inl ⟨_, rfl, by simp [books, with_jobs, roll_back, hback, hs]⟩
        · next himages =>
          obtain ⟨rfl, hchecks⟩ := recorded_jobs_ok himages
          refine .inr ⟨rfl, hchecks, ?_⟩
          simp only [books, with_jobs, hs, hjobs]
          rw [put_images]

/-- Whatever becomes of the batch, it touches neither reservations nor evidence. -/
theorem commit_jobs_aside (s : Store) (jobs : List MaintenanceJob) :
    (s.commit_jobs jobs).2.books.ledger = s.books.ledger ∧
      (s.commit_jobs jobs).2.books.evidence = s.books.evidence := by
  have happended : ∀ {s' : Store} {table : JobTable}, s'.state = s.state →
      (s'.with_jobs table).books.ledger = s.books.ledger ∧
        (s'.with_jobs table).books.evidence = s.books.evidence := by
    intro s' table h
    simp [books, with_jobs, h]
  unfold commit_jobs
  split
  · exact ⟨rfl, rfl⟩
  · split
    · exact ⟨rfl, rfl⟩
    · split
      · next h => exact happended (books_append_and_flush h)
      · next h => split <;> exact happended (books_append_and_flush h)

/-- One transaction carries all jobs of a batch. -/
theorem commit_jobs_length {s : Store} {jobs : List MaintenanceJob}
    (h : (s.commit_jobs jobs).1 = ok_status) :
    jobs.length ≤ limits.kMaxRecordsPerTransaction := by
  have hadm : admit_transaction (jobs.map .job) = .ok () := by
    unfold commit_jobs at h
    split at h
    · cases h
    · split at h
      · cases h
      · split at h
        · cases h
        · next hwritten =>
          unfold append_and_flush at hwritten
          split at hwritten
          · cases hwritten
          · split at hwritten
            · cases hwritten
            · next happend =>
              unfold append_transaction at happend
              split at happend
              · cases happend
              · next hok => exact hok
  simp only [admit_transaction, Result.bind_eq_ok, refuse_if_eq_ok, decide_eq_false_iff_not,
    List.length_map] at hadm
  obtain ⟨_, _, _, hlength, _⟩ := hadm
  exact Nat.le_of_not_lt hlength

/-! ## Evidence -/

theorem observe_evidence_cases (s : Store) (record : EvidenceRecord) :
    (∃ e, (s.observe_evidence record).1 = .error e ∧ (s.observe_evidence record).2.books = s.books ∧
      (e.code = .StaleRevision → ∃ e', s.books.evidence.observe record = .error e' ∧
        e'.code = .StaleRevision)) ∨
    ∃ staging, s.books.evidence.observe record = .ok staging ∧
      (s.observe_evidence record).1 = ok_status ∧
      (s.observe_evidence record).2.books = { s.books with evidence := staging } := by
  unfold observe_evidence
  split
  · next e h => exact .inl ⟨e, rfl, rfl, fun hcode => ⟨e, h, hcode⟩⟩
  · next staging hstage =>
    split
    · next e _ h =>
      refine .inl ⟨e, rfl, books_of_state_eq (books_append_transaction h), ?_⟩
      intro hcode
      exact absurd hcode (append_transaction_error h)
    · next h =>
      have hs := books_append_transaction h
      exact .inr ⟨staging, hstage, rfl, by simp [books, hs]⟩

/-! ## Ledger -/

theorem install_ledger_cases (s : Store) (entries : List Entry) (staging : AuthorityLedger)
    (digests : Digests) :
    (∃ e, (s.install_ledger entries staging digests).1 = .error e ∧
      (s.install_ledger entries staging digests).2.books = s.books) ∨
    (s.install_ledger entries staging digests).1 = ok_status ∧
      (s.install_ledger entries staging digests).2.books = { s.books with ledger := staging } := by
  unfold install_ledger
  split
  · next e _ h => exact .inl ⟨e, rfl, books_of_state_eq (books_append_transaction h)⟩
  · next h =>
    have hs := books_append_transaction h
    exact .inr ⟨rfl, by simp [books, with_ledger, hs]⟩

theorem reserve_authority_cases (s : Store) (r : AuthorityReservation) :
    (∃ e, (s.reserve_authority r).1 = .error e ∧ (s.reserve_authority r).2.books = s.books) ∨
    ∃ granted staging, s.books.ledger.reserve r = .ok (granted, staging) ∧
      (s.reserve_authority r).1 = .ok granted.id ∧
      (s.reserve_authority r).2.books = { s.books with ledger := staging } := by
  unfold reserve_authority
  split
  · next e _ => exact .inl ⟨e, rfl, rfl⟩
  · next granted staging h =>
    simp only
    rcases install_ledger_cases s [.reservation granted (reservation_digest granted)] staging
      (s.digests.with_reservation granted.id (reservation_digest granted))
      with ⟨e, he, hb⟩ | ⟨hok, hb⟩
    · split
      · next heq => rw [heq] at hb; exact .inl ⟨_, rfl, hb⟩
      · next heq => rw [heq] at he; cases he
    · split
      · next heq => rw [heq] at hok; cases hok
      · next heq => rw [heq] at hb; exact .inr ⟨granted, staging, h, rfl, hb⟩

theorem insert_authority_cases (s : Store) (r : AuthorityReservation) :
    (∃ e, (s.insert_authority r).1 = .error e ∧ (s.insert_authority r).2.books = s.books) ∨
    ∃ staging, s.books.ledger.adopt r = .ok staging ∧ (s.insert_authority r).1 = ok_status ∧
      (s.insert_authority r).2.books = { s.books with ledger := staging } := by
  unfold insert_authority
  split
  · next e _ => exact .inl ⟨e, rfl, rfl⟩
  · next staging h =>
    rcases install_ledger_cases s _ staging _ with ⟨e, he, hb⟩ | ⟨hok, hb⟩
    · exact .inl ⟨e, he, hb⟩
    · exact .inr ⟨staging, h, hok, hb⟩

/-- A release drops the named row or nothing. -/
theorem release_authority_books (s : Store) (id : AuthorityId) (current : ControllerIncarnation) :
    (s.release_authority id current).2.books = s.books ∨
    (s.release_authority id current).2.books =
      { s.books with ledger := { s.books.ledger with
          reservations := s.books.ledger.reservations.erase id } } := by
  unfold release_authority
  split
  · exact .inl rfl
  · next staging h =>
    obtain ⟨_, _, hstage⟩ := AuthorityLedger.release_ok h
    rcases install_ledger_cases s _ staging _ with ⟨e, he, hb⟩ | ⟨hok, hb⟩
    · exact .inl hb
    · exact .inr (hstage ▸ hb)

/-- A renewal replaces the named row by one that differs in its end and revision only. -/
theorem renew_authority_books (s : Store) (id : AuthorityId) (attempt : AttemptId)
    (current : ControllerIncarnation) (extend now : Nanos) :
    (s.renew_authority id attempt current extend now).2.books = s.books ∨
    ∃ r e v, r ∈ s.books.ledger.reservations.rows ∧ r.expires_at ≤ e ∧
      (s.renew_authority id attempt current extend now).2.books =
        { s.books with ledger := { s.books.ledger with
            reservations := s.books.ledger.reservations.put
              { r with expires_at := e, revision := v } } } := by
  unfold renew_authority
  split
  · exact .inl rfl
  · next staging h =>
    split
    · exact .inl rfl
    · obtain ⟨r, e, v, hr, hle, rfl⟩ := AuthorityLedger.renew_ok h
      rcases install_ledger_cases s _ _ _ with ⟨_, _, hb⟩ | ⟨_, hb⟩
      · exact .inl hb
      · exact .inr ⟨r, e, v, Table.mem_of_find hr, hle, hb⟩

theorem expire_authority_books (s : Store) (now : Nanos) :
    (s.expire_authority now).books = s.books ∨
    (s.expire_authority now).books = { s.books with ledger := s.books.ledger.expire now } := by
  unfold expire_authority
  simp only
  split
  · exact .inl rfl
  · rcases install_ledger_cases s _ (s.state.ledger.expire now) s.digests
      with ⟨e, he, hb⟩ | ⟨hok, hb⟩
    · exact .inl hb
    · exact .inr hb

theorem fence_authority_books (s : Store) (current : ControllerIncarnation) :
    (s.fence_authority current).books = s.books ∨
    (s.fence_authority current).books =
      { s.books with ledger := (s.books.ledger.fence_older_incarnations current).2 } := by
  unfold fence_authority
  simp only
  split
  · exact .inl rfl
  · rcases install_ledger_cases s _ (s.state.ledger.fence_older_incarnations current).2 s.digests
      with ⟨e, he, hb⟩ | ⟨hok, hb⟩
    · exact .inl hb
    · exact .inr hb

end Store

end MaintenanceFabric
