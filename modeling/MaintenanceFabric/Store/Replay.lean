import MaintenanceFabric.Lib.WriteAhead
import MaintenanceFabric.Store.Frames
import MaintenanceFabric.Store.Store

/-! # Opening a store

    A store is opened by replaying its journal: every record that an intact
    frame delivers is decoded and applied to an empty state, and a record that
    does not decode is skipped.

    `effect` says directly what an entry's record does to the state, without
    going through its bytes; `open_laid` connects the two.
-/

namespace MaintenanceFabric

open Lib

/-! ## Applying a record -/

structure StoreOptions where
  journal_path : Text
  create_if_missing : Bool := true
  evidence_capacity : Nat := limits.kMaxEvidenceRecords

def StoreOptions.journal (options : StoreOptions) : JournalOptions :=
  { path := options.journal_path, create_if_missing := options.create_if_missing }

namespace Store

/-- The state before any record is applied. -/
def fresh (options : StoreOptions) : Store :=
  { state := { evidence := { capacity := EvidenceStore.bound options.evidence_capacity } } }

/-- A record that does not decode is an error under `strict` and is skipped otherwise. -/
def discard (s : Store) (strict : Bool) (e : Error) : Status × Store :=
  (if strict then .error e else ok_status, s)

/-- `Store::apply`. -/
def apply (s : Store) (record : Record) (strict : Bool) : Status × Store :=
  match record.type with
  | .Topology =>
      match decode_topology_record record with
      | .error e => s.discard strict e
      | .ok topology => (ok_status, { s with state := { s.state with topology } })
  | .Policy =>
      match decode_policy_record record with
      | .error e => s.discard strict e
      | .ok policy => (ok_status, { s with state := { s.state with policy } })
  | .Job =>
      match decode_job_record record with
      | .error e => s.discard strict e
      | .ok job =>
          match s.state.jobs.adopt job with
          | .error _ => (ok_status, s)
          | .ok jobs => (ok_status, s.with_jobs jobs)
  | .JobErased =>
      match decode_job_erased_record record with
      | .error e => s.discard strict e
      | .ok id => (ok_status, s.with_jobs (s.state.jobs.erase id))
  | .Evidence =>
      match decode_evidence_record record with
      | .error e => s.discard strict e
      | .ok (evidence, digest) =>
          match s.state.evidence.observe evidence with
          | .error _ => (ok_status, s)
          | .ok staging =>
              (ok_status, { s with
                state := { s.state with evidence := staging }
                digests := s.digests.with_evidence evidence.key
                  (sealed digest (evidence_digest evidence)) })
  | .Reservation =>
      match decode_reservation_record record with
      | .error e => s.discard strict e
      | .ok (reservation, digest) =>
          match s.state.ledger.adopt reservation with
          | .error _ => (ok_status, s)
          | .ok ledger =>
              (ok_status, { s.with_ledger ledger with
                digests := s.digests.with_reservation reservation.id
                  (sealed digest (reservation_digest reservation)) })
  | .ReservationErased =>
      match decode_reservation_erased_record record with
      | .error e => s.discard strict e
      | .ok id =>
          (ok_status, s.with_ledger
            { s.state.ledger with reservations := s.state.ledger.reservations.erase id })
  | .Lease =>
      match decode_lease_record record with
      | .error e => s.discard strict e
      | .ok lease =>
          (ok_status, { s with state := { s.state with leases := s.state.leases.put lease } })
  | .LeaseErased =>
      match decode_lease_erased_record record with
      | .error e => s.discard strict e
      | .ok id =>
          (ok_status, { s with state := { s.state with leases := s.state.leases.erase id } })
  | .Quarantine =>
      match decode_quarantine_record record with
      | .error e => s.discard strict e
      | .ok (quarantine, digest) =>
          match s.state.quarantines.adopt quarantine with
          | .error _ => (ok_status, s)
          | .ok quarantines =>
              (ok_status, { s.with_quarantines quarantines with
                digests := s.digests.with_quarantine quarantine.id
                  (sealed digest (quarantine_digest quarantine)) })
  | .Boot =>
      match decode_boot_record record with
      | .error e => s.discard strict e
      | .ok (incarnation, _) =>
          (ok_status, { s with state := { s.state with
            last_incarnation := incarnation, boot_epoch := incarnation.boot_epoch } })
  | _ => (ok_status, s)

/-- The visitor of `Store::open`. A topology or policy that does not decode is only reported. -/
def visit (s : Store) (record : Record) : Store :=
  (s.apply record (decide (record.type = .Topology) || decide (record.type = .Policy))).2

/-- `Store::open`; `disk` is the journal file, if there is one. -/
def «open» (options : StoreOptions) (disk : Option Text) : Result (Journal × Store) := do
  let opened ← Journal.open options.journal disk
  let (journal, _, records) ← opened.replay
  let s := records.foldl visit (fresh options)
  .ok (journal, s.with_jobs { s.state.jobs with next_id := next_job_id s.state.jobs })

/-- The strictness of a record changes what is reported, not what is applied. -/
theorem apply_strict (s : Store) (record : Record) (strict : Bool) :
    (s.apply record strict).2 = (s.apply record false).2 := by
  unfold apply
  split <;> first | rfl | (split <;> rfl)

end Store

/-! ## What an entry does -/

/-- The part of a store that a journal preserves. -/
structure Image where
  topology : Topology
  policy : Policy
  jobs : Table MaintenanceJob.id
  evidence : EvidenceStore
  reservations : Table AuthorityReservation.id
  leases : Table DrainLease.id
  quarantines : Table QuarantineRecord.id
  last_incarnation : ControllerIncarnation
  boot_epoch : BootEpoch
  digests : Digests

def Store.image (s : Store) : Image :=
  { topology := s.state.topology
    policy := s.state.policy
    jobs := s.state.jobs.jobs
    evidence := s.state.evidence
    reservations := s.state.ledger.reservations
    leases := s.state.leases
    quarantines := s.state.quarantines.records
    last_incarnation := s.state.last_incarnation
    boot_epoch := s.state.boot_epoch
    digests := s.digests }

/-- The effect of an entry's record when it is applied. A record that its decoder refuses has
    none. -/
def Image.effect (i : Image) : Entry → Image
  | .topology t =>
      match recorded_topology t with
      | .error _ => i
      | .ok topology => { i with topology }
  | .policy p =>
      match recorded_policy p with
      | .error _ => i
      | .ok policy => { i with policy }
  | .job j =>
      match recorded_job j with
      | .error _ => i
      | .ok image => { i with jobs := i.jobs.put image }
  | .job_erased id => if id.valid then { i with jobs := i.jobs.erase id } else i
  | .evidence r digest =>
      match i.evidence.observe r with
      | .error _ => i
      | .ok evidence =>
          { i with
            evidence
            digests := i.digests.with_evidence r.key (sealed digest (evidence_digest r)) }
  | .reservation r digest =>
      match check_reservation_record r with
      | .error _ => i
      | .ok _ =>
          { i with
            reservations := i.reservations.put r
            digests := i.digests.with_reservation r.id (sealed digest (reservation_digest r)) }
  | .reservation_erased id =>
      if id.valid then { i with reservations := i.reservations.erase id } else i
  | .lease l =>
      match check_lease_record l with
      | .error _ => i
      | .ok _ => { i with leases := i.leases.put l }
  | .lease_erased id => if id.valid then { i with leases := i.leases.erase id } else i
  | .quarantine q digest =>
      match check_quarantine_record q with
      | .error _ => i
      | .ok _ =>
          { i with
            quarantines := i.quarantines.put (clipped_quarantine q)
            digests := i.digests.with_quarantine q.id
              (sealed digest (quarantine_digest (clipped_quarantine q))) }
  | .boot incarnation _ =>
      if incarnation.valid then
        { i with last_incarnation := incarnation, boot_epoch := incarnation.boot_epoch }
      else i

/-- Every field of the entry fits the width its record gives it. A topology is validated before
    it is encoded. -/
def Entry.machine : Entry → Prop
  | .topology t => t.machine ∧ t.validate = .ok ()
  | .policy p => p.machine
  | .job j => j.machine
  | .job_erased id => id.machine
  | .evidence r _ => r.machine
  | .reservation r _ => r.machine
  | .reservation_erased id => id.machine
  | .lease l => l.machine
  | .lease_erased id => id.machine
  | .quarantine q _ => q.machine
  | .boot incarnation prior => incarnation.machine ∧ prior.machine

namespace Store

/-! ### One record of each type

    Records of fixed length are taken as variables, known only by what they
    decode to: their bytes would otherwise be decoded by reduction.
-/

theorem image_apply_topology (s : Store) {t : Topology} (h : t.machine) (hv : t.validate = .ok ()) :
    (s.apply (encode_topology_record t) false).2.image = s.image.effect (.topology t) := by
  have htype : (encode_topology_record t).type = .Topology := rfl
  have hdecode := fun u => decode_encode_topology (u := u) h hv
  generalize encode_topology_record t = record at htype hdecode ⊢
  unfold apply Image.effect
  rw [htype]
  cases hr : recorded_topology t with
  | ok u =>
    simp only [(hdecode u).mpr hr, hr]
    rfl
  | error e =>
    cases hd : decode_topology_record record with
    | ok u =>
      rw [(hdecode u).mp hd] at hr
      cases hr
    | error e =>
      simp only [hr]
      rfl

theorem image_apply_policy (s : Store) {p : Policy} (h : p.machine) :
    (s.apply (encode_policy_record p) false).2.image = s.image.effect (.policy p) := by
  have htype : (encode_policy_record p).type = .Policy := rfl
  have hdecode := decode_encode_policy h
  generalize encode_policy_record p = record at htype hdecode ⊢
  unfold apply Image.effect
  rw [htype]
  simp only [hdecode]
  cases recorded_policy p <;> rfl

theorem image_apply_job (s : Store) {j : MaintenanceJob} (h : j.machine) :
    (s.apply (encode_job_record j) false).2.image = s.image.effect (.job j) := by
  have htype : (encode_job_record j).type = .Job := rfl
  have hdecode := decode_encode_job h
  generalize encode_job_record j = record at htype hdecode ⊢
  unfold apply Image.effect
  rw [htype]
  simp only [hdecode]
  cases hr : recorded_job j with
  | error e => rfl
  | ok image =>
    obtain ⟨rfl, hcheck⟩ := recorded_job_ok hr
    have hid : (clipped_job j).id.valid = true := (check_job_record_valid hcheck).1
    simp only [JobTable.adopt, hid]
    rfl

theorem image_apply_job_erased (s : Store) {record : Record} {id : JobId}
    (htype : record.type = .JobErased)
    (hdecode : id.valid = true ∧ decode_job_erased_record record = .ok id ∨
      id.valid = false ∧ ∃ e, decode_job_erased_record record = .error e) :
    (s.apply record false).2.image = s.image.effect (.job_erased id) := by
  unfold apply Image.effect
  rw [htype]
  rcases hdecode with ⟨hid, hdecode⟩ | ⟨hid, e, hdecode⟩
  · simp only [hdecode, hid]
    rfl
  · simp only [hdecode, hid]
    rfl

theorem image_apply_evidence_read (s : Store) {record : Record} {r : EvidenceRecord}
    {digest : UInt64} (htype : record.type = .Evidence)
    (hread : decode_evidence_record record = .ok (r, digest)) :
    (s.apply record false).2.image = s.image.effect (.evidence r digest) := by
  unfold apply Image.effect
  rw [htype]
  simp only [hread, show s.image.evidence = s.state.evidence from rfl]
  cases s.state.evidence.observe r <;> rfl

theorem image_apply_evidence_refused (s : Store) {record : Record} {r : EvidenceRecord}
    {digest : UInt64} {e e' : Error} (htype : record.type = .Evidence)
    (hread : decode_evidence_record record = .error e)
    (hobserve : s.image.evidence.observe r = .error e') :
    (s.apply record false).2.image = s.image.effect (.evidence r digest) := by
  unfold apply Image.effect
  rw [htype]
  simp only [hread, hobserve]
  rfl

theorem image_apply_evidence (s : Store) {r : EvidenceRecord} (h : r.machine) (digest : UInt64) :
    (s.apply (encode_evidence_record r digest) false).2.image =
      s.image.effect (.evidence r digest) := by
  have htype : (encode_evidence_record r digest).type = .Evidence := rfl
  have hdecode := decode_encode_evidence h digest
  cases hv : r.valid with
  | true =>
    have hread : decode_evidence_record (encode_evidence_record r digest) = .ok (r, digest) := by
      rw [hdecode, hv]
      rfl
    exact image_apply_evidence_read s htype hread
  | false =>
    have hread : ∃ e, decode_evidence_record (encode_evidence_record r digest) = .error e := by
      rw [hdecode, hv]
      exact ⟨_, rfl⟩
    have hrefused : ∃ e, s.image.evidence.observe r = .error e := by
      unfold EvidenceStore.observe
      rw [hv]
      exact ⟨_, rfl⟩
    obtain ⟨e, hread⟩ := hread
    obtain ⟨e', hrefused⟩ := hrefused
    exact image_apply_evidence_refused s htype hread hrefused

theorem image_apply_reservation (s : Store) {r : AuthorityReservation} (h : r.machine)
    (digest : UInt64) :
    (s.apply (encode_reservation_record r digest) false).2.image =
      s.image.effect (.reservation r digest) := by
  have htype : (encode_reservation_record r digest).type = .Reservation := rfl
  have hdecode := decode_encode_reservation h digest
  generalize encode_reservation_record r digest = record at htype hdecode ⊢
  unfold apply Image.effect
  rw [htype]
  simp only [hdecode]
  cases hcheck : check_reservation_record r with
  | error e => rfl
  | ok _ =>
    obtain ⟨hid, hjob⟩ := check_reservation_record_valid hcheck
    simp only [Result.ok_bind, AuthorityLedger.adopt, hid, hjob]
    rfl

theorem image_apply_reservation_erased (s : Store) {record : Record} {id : AuthorityId}
    (htype : record.type = .ReservationErased)
    (hdecode : id.valid = true ∧ decode_reservation_erased_record record = .ok id ∨
      id.valid = false ∧ ∃ e, decode_reservation_erased_record record = .error e) :
    (s.apply record false).2.image = s.image.effect (.reservation_erased id) := by
  unfold apply Image.effect
  rw [htype]
  rcases hdecode with ⟨hid, hdecode⟩ | ⟨hid, e, hdecode⟩
  · simp only [hdecode, hid]
    rfl
  · simp only [hdecode, hid]
    rfl

theorem image_apply_lease (s : Store) {l : DrainLease} (h : l.machine) :
    (s.apply (encode_lease_record l) false).2.image = s.image.effect (.lease l) := by
  have htype : (encode_lease_record l).type = .Lease := rfl
  have hdecode := decode_encode_lease h
  generalize encode_lease_record l = record at htype hdecode ⊢
  unfold apply Image.effect
  rw [htype]
  simp only [hdecode]
  cases check_lease_record l <;> rfl

theorem image_apply_lease_erased (s : Store) {record : Record} {id : DrainLeaseId}
    (htype : record.type = .LeaseErased)
    (hdecode : id.valid = true ∧ decode_lease_erased_record record = .ok id ∨
      id.valid = false ∧ ∃ e, decode_lease_erased_record record = .error e) :
    (s.apply record false).2.image = s.image.effect (.lease_erased id) := by
  unfold apply Image.effect
  rw [htype]
  rcases hdecode with ⟨hid, hdecode⟩ | ⟨hid, e, hdecode⟩
  · simp only [hdecode, hid]
    rfl
  · simp only [hdecode, hid]
    rfl

theorem image_apply_quarantine (s : Store) {q : QuarantineRecord} (h : q.machine)
    (digest : UInt64) :
    (s.apply (encode_quarantine_record q digest) false).2.image =
      s.image.effect (.quarantine q digest) := by
  have htype : (encode_quarantine_record q digest).type = .Quarantine := rfl
  have hdecode := decode_encode_quarantine h digest
  generalize encode_quarantine_record q digest = record at htype hdecode ⊢
  unfold apply Image.effect
  rw [htype]
  simp only [hdecode]
  cases hcheck : check_quarantine_record q with
  | error e => rfl
  | ok _ =>
    have hadopt : (!(clipped_quarantine q).id.valid || !(clipped_quarantine q).target.valid) =
        false := by
      simpa only [clipped_quarantine, check_quarantine_record, refuse_if_eq_ok] using hcheck
    simp only [Result.ok_bind, QuarantineTable.adopt, hadopt]
    rfl

theorem image_apply_boot (s : Store) {record : Record} {i : ControllerIncarnation}
    {prior : BootEpoch} (htype : record.type = .Boot)
    (hdecode : decode_boot_record record =
      (do refuse_if (!i.valid) (corrupt (text "boot record is not well formed"))
          .ok (i, prior))) :
    (s.apply record false).2.image = s.image.effect (.boot i prior) := by
  unfold apply Image.effect
  rw [htype]
  simp only [hdecode]
  cases hi : i.valid <;> rfl

/-- Reading an entry's record back and applying it has the entry's effect. -/
theorem image_visit (s : Store) {e : Entry} (h : e.machine) :
    (s.visit e.record).image = s.image.effect e := by
  unfold visit
  rw [apply_strict]
  cases e with
  | topology t => exact image_apply_topology s h.1 h.2
  | policy p => exact image_apply_policy s h
  | job j => exact image_apply_job s h
  | job_erased id =>
    exact image_apply_job_erased s rfl (decode_encode_erased_cases h .JobErased _ _)
  | evidence r digest => exact image_apply_evidence s h digest
  | reservation r digest => exact image_apply_reservation s h digest
  | reservation_erased id =>
    exact image_apply_reservation_erased s rfl (decode_encode_erased_cases h .ReservationErased _ _)
  | lease l => exact image_apply_lease s h
  | lease_erased id =>
    exact image_apply_lease_erased s rfl (decode_encode_erased_cases h .LeaseErased _ _)
  | quarantine q digest => exact image_apply_quarantine s h digest
  | boot i prior => exact image_apply_boot s rfl (decode_encode_boot h.1 h.2)

theorem image_visits (s : Store) {entries : List Entry} (h : ∀ e ∈ entries, e.machine) :
    ((entries.map Entry.record).foldl visit s).image = entries.foldl Image.effect s.image := by
  induction entries generalizing s with
  | nil => rfl
  | cons e entries ih =>
    simp only [List.map_cons, List.foldl_cons]
    rw [ih _ (fun x hx => h x (List.mem_cons_of_mem _ hx)), image_visit s (h e List.mem_cons_self)]

end Store

end MaintenanceFabric
