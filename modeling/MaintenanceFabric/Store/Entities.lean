import MaintenanceFabric.Store.Codec

/-! # Records of the smaller entities

    Evidence, reservations, leases, quarantines, boots and the records that
    erase one of them.  Evidence, reservations and quarantines carry a digest
    of themselves in their record; the digest travels beside the value.

    For each entity, what its record decodes to is given directly: the checks
    of the decoder, then the value as the record keeps it.
-/

namespace MaintenanceFabric

open Lib

/-! ## Enumerations -/

def DrainState.code : DrainState → Nat
  | .Unknown => 0
  | .Draining => 1
  | .Drained => 2
  | .Failed => 3
  | .Released => 4
  | .NotFound => 5

def DrainState.ofCode : Nat → DrainState :=
  enumerator [.Unknown, .Draining, .Drained, .Failed, .Released, .NotFound] .Unknown

@[simp] theorem DrainState.ofCode_code (s : DrainState) : ofCode s.code = s := by cases s <;> rfl

def kBlockReasonCount : Nat := 22

def BlockReason.ofCode : Nat → BlockReason :=
  enumerator [.None, .TargetUnknown, .TargetNotMaintainable, .EvidenceMissingOrStale,
    .RedundancyViolation, .FailureDomainLimit, .ContractViolation, .CapacityHeadroom,
    .ConflictingMaintenance, .DependencyUnmet, .WindowUnavailable, .AuthorityDenied, .DrainFailed,
    .DrainLeaseLost, .AwaitingCompletionReport, .VerificationFailed, .RestorationFailed,
    .ReconciledAfterRestart, .ControlPlaneUnsafe, .PolicyDenied, .OperatorHold, .Overflow] .None

@[simp] theorem BlockReason.ofCode_code (b : BlockReason) : ofCode b.code = b := by cases b <;> rfl

theorem BlockReason.code_lt (b : BlockReason) : b.code < kBlockReasonCount := by
  cases b <;> decide

def kEvidenceKindCount : Nat := 7

def EvidenceKind.ofCode (code : Nat) : EvidenceKind :=
  enumerator [.TargetHealth, .PoolRedundancy, .ContractAvailability, .DrainLeaseState,
    .RestorationCheck, .MaintenanceCompletion, .ControlPlaneQuorum] .TargetHealth (code - 1)

@[simp] theorem EvidenceKind.ofCode_code (k : EvidenceKind) : ofCode k.code = k := by
  cases k <;> rfl

def SubjectKind.ofCode : Nat → SubjectKind :=
  enumerator [.None, .Target, .Domain, .Pool, .Contract, .Global] .None

@[simp] theorem SubjectKind.ofCode_code (k : SubjectKind) : ofCode k.code = k := by
  cases k <;> rfl

def EvidenceClass.code : EvidenceClass → Nat
  | .Volatile => 0
  | .Durable => 1

def EvidenceClass.ofCode : Nat → EvidenceClass := enumerator [.Volatile, .Durable] .Volatile

@[simp] theorem EvidenceClass.ofCode_code (k : EvidenceClass) : ofCode k.code = k := by
  cases k <;> rfl

def Health.ofCode : Nat → Health :=
  enumerator [.Unknown, .Healthy, .Degraded, .Down, .Retired] .Unknown

@[simp] theorem Health.ofCode_code (h : Health) : ofCode h.code = h := by cases h <;> rfl

/-! ## Drain leases -/

def kLeaseLayout : Nat := 1

def encode_lease_record (lease : DrainLease) : Record :=
  let w := (({} : ByteWriter).u16 kLeaseLayout).u64 lease.id.value
  let w := ((write_target_list w lease.targets).i64 lease.granted_at).i64 lease.expires_at
  let w := write_attempt_id (w.u32 lease.state.code) lease.attempt
  ⟨.Lease, ((write_incarnation w lease.owner).u64 lease.epoch).buffer⟩

def read_lease : Reader DrainLease := do
  Reader.layout kLeaseLayout (text "lease")
  let id ← Reader.id
  let targets ← read_target_list limits.kMaxDrainTargetsPerRequest
  let granted_at ← Reader.i64
  let expires_at ← Reader.i64
  let state ← Reader.u32
  Reader.refuse (state > DrainState.NotFound.code)
    (corrupt (text "lease record carries an unknown drain state"))
  let attempt ← read_attempt_id
  let owner ← read_incarnation
  let epoch ← Reader.u64
  pure { id, targets, granted_at, expires_at,
         state := DrainState.ofCode state, attempt, owner, epoch }

def decode_lease_record (record : Record) : Result DrainLease := do
  refuse_if (record.type ≠ .Lease) (invalid_argument (text "record is not a lease record"))
  let lease ← read_lease.decode (corrupt (text "lease record is malformed")) record.payload
  refuse_if (!lease.id.valid) (corrupt (text "lease record is not well formed"))
  .ok lease

structure DrainLease.machine (l : DrainLease) : Prop where
  id : l.id.machine
  targets : machine_list TargetId.machine l.targets
  granted_at : i64_range l.granted_at
  expires_at : i64_range l.expires_at
  attempt : l.attempt.machine
  owner : l.owner.machine
  epoch : l.epoch < u64_range

/-- The bounds `decode_lease_record` enforces. -/
def check_lease_record (lease : DrainLease) : Status := do
  check_target_list limits.kMaxDrainTargetsPerRequest lease.targets
  refuse_if (!lease.id.valid) (corrupt (text "lease record is not well formed"))

def lease_fields (l : DrainLease) : List Text :=
  [u16Bytes kLeaseLayout, u64Bytes l.id.value, list_bytes target_bytes l.targets,
   i64Bytes l.granted_at, i64Bytes l.expires_at, u32Bytes l.state.code, attempt_bytes l.attempt,
   incarnation_bytes l.owner, u64Bytes l.epoch]

theorem encode_lease_record_payload (l : DrainLease) :
    (encode_lease_record l).payload = (lease_fields l).flatten := by
  simp [encode_lease_record, lease_fields]

theorem ReadsAs.lease {l : DrainLease} (h : l.machine) :
    ReadsAs read_lease (lease_fields l).flatten
      (do check_target_list limits.kMaxDrainTargetsPerRequest l.targets
          .ok l) := by
  have hstate : l.state.code < u32_range := by cases l.state <;> decide
  have hknown : decide (l.state.code > DrainState.NotFound.code) = false := by
    cases l.state <;> decide
  refine Reads.field (ReadsAs.layout (by decide) _) ?_
  refine Reads.field (ReadsAs.id h.id) ?_
  refine Reads.guarded (ReadsAs.target_list h.targets _) ?_
  refine Reads.field (ReadsAs.i64 h.granted_at) ?_
  refine Reads.field (ReadsAs.i64 h.expires_at) ?_
  refine Reads.field (ReadsAs.u32 hstate) ?_
  refine Reads.pass (ReadsAs.accepts hknown _) ?_
  refine Reads.field (ReadsAs.attempt_id h.attempt) ?_
  refine Reads.field (ReadsAs.incarnation h.owner) ?_
  refine Reads.field (ReadsAs.u64 h.epoch) ?_
  rw [DrainState.ofCode_code]
  exact Reads.pure l

/-- What a lease record decodes to. -/
theorem decode_encode_lease {l : DrainLease} (h : l.machine) :
    decode_lease_record (encode_lease_record l) =
      (do check_lease_record l
          .ok l) := by
  have hread := (ReadsAs.lease h).decode (corrupt (text "lease record is malformed"))
  rw [← encode_lease_record_payload] at hread
  simp only [decode_lease_record,
    refuse_if_type (show (encode_lease_record l).type = .Lease from rfl),
    hread, check_lease_record, bind_assoc, Result.ok_bind]

/-! ## Reservations -/

def reservation_digest (r : AuthorityReservation) : UInt64 :=
  let d := ({} : Digest).update (text "mf.authority.v1")
  let d := ((d.update_u64 r.id.value).update_u64 r.job.value).update_u64 r.generation.value
  let d := (d.update r.attempt.to_string).update r.owner.to_string
  let d := r.targets.foldl (fun d t => (d.update_u32 t.kind.code).update_u32 t.index)
    (d.update_u64 r.targets.length)
  let d := r.domains.foldl (fun d x => (d.update_u32 x.kind.code).update_u32 x.index)
    (d.update_u64 r.domains.length)
  let d := r.pools.foldl (fun d p => d.update_u64 p.value) (d.update_u64 r.pools.length)
  ((d.update_i64 r.granted_at).update_i64 r.expires_at).value

def kReservationLayout : Nat := 1

def encode_reservation_record (r : AuthorityReservation) (digest : UInt64) : Record :=
  let w := (({} : ByteWriter).u16 kReservationLayout).u64 r.id.value
  let w := write_attempt_id ((w.u64 r.job.value).u64 r.generation.value) r.attempt
  let w := write_target_list (write_incarnation w r.owner) r.targets
  let w := write_list write_domain_id w r.domains
  let w := write_list (fun w id => w.u64 id.value) w r.pools
  let w := ((w.u64 r.revision.value).i64 r.granted_at).i64 r.expires_at
  ⟨.Reservation, (w.u64 digest.toNat).buffer⟩

def read_reservation : Reader (AuthorityReservation × UInt64) := do
  Reader.layout kReservationLayout (text "reservation")
  let id ← Reader.id
  let job ← Reader.id
  let generation ← Reader.id
  let attempt ← read_attempt_id
  let owner ← read_incarnation
  let targets ← read_target_list limits.kMaxTargetsPerTopology
  let domains ← read_list limits.kMaxDomainsPerTopology
    (corrupt (text "reservation domain count exceeds the bound")) read_domain_id
  let pools ← read_list limits.kMaxPoolsPerTopology
    (corrupt (text "reservation pool count exceeds the bound")) Reader.id
  let revision ← Reader.id
  let granted_at ← Reader.i64
  let expires_at ← Reader.i64
  let digest ← Reader.u64
  pure ({ id, job, generation, attempt, owner, targets, domains, pools, revision, granted_at,
          expires_at }, UInt64.ofNat digest)

def decode_reservation_record (record : Record) : Result (AuthorityReservation × UInt64) := do
  refuse_if (record.type ≠ .Reservation)
    (invalid_argument (text "record is not a reservation record"))
  let (r, digest) ← read_reservation.decode (corrupt (text "reservation record is malformed"))
    record.payload
  refuse_if (!r.id.valid || !r.job.valid || !r.attempt.valid || !r.owner.valid)
    (corrupt (text "reservation record is not well formed"))
  .ok (r, digest)

structure AuthorityReservation.machine (r : AuthorityReservation) : Prop where
  id : r.id.machine
  job : r.job.machine
  generation : r.generation.machine
  attempt : r.attempt.machine
  owner : r.owner.machine
  targets : machine_list TargetId.machine r.targets
  domains : machine_list DomainId.machine r.domains
  pools : machine_list StrongId.machine r.pools
  revision : r.revision.machine
  granted_at : i64_range r.granted_at
  expires_at : i64_range r.expires_at

/-- The bounds on the lists of a reservation record. -/
def check_reservation_lists (r : AuthorityReservation) : Status := do
  check_target_list limits.kMaxTargetsPerTopology r.targets
  refuse_if (r.domains.length > limits.kMaxDomainsPerTopology)
    (corrupt (text "reservation domain count exceeds the bound"))
  refuse_if (r.pools.length > limits.kMaxPoolsPerTopology)
    (corrupt (text "reservation pool count exceeds the bound"))

/-- The bounds `decode_reservation_record` enforces. -/
def check_reservation_record (r : AuthorityReservation) : Status := do
  check_reservation_lists r
  refuse_if (!r.id.valid || !r.job.valid || !r.attempt.valid || !r.owner.valid)
    (corrupt (text "reservation record is not well formed"))

theorem check_reservation_record_valid {r : AuthorityReservation}
    (h : check_reservation_record r = .ok ()) : r.id.valid = true ∧ r.job.valid = true := by
  simp only [check_reservation_record, Result.bind_eq_ok, refuse_if_eq_ok] at h
  obtain ⟨_, _, hvalid⟩ := h
  simp only [Bool.or_eq_false_iff, Bool.not_eq_false'] at hvalid
  exact ⟨hvalid.1.1.1, hvalid.1.1.2⟩

def reservation_fields (r : AuthorityReservation) (digest : UInt64) : List Text :=
  [u16Bytes kReservationLayout, u64Bytes r.id.value, u64Bytes r.job.value,
   u64Bytes r.generation.value, attempt_bytes r.attempt, incarnation_bytes r.owner,
   list_bytes target_bytes r.targets, list_bytes domain_bytes r.domains,
   list_bytes (fun id => u64Bytes id.value) r.pools, u64Bytes r.revision.value,
   i64Bytes r.granted_at, i64Bytes r.expires_at, u64Bytes digest.toNat]

theorem encode_reservation_record_payload (r : AuthorityReservation) (digest : UInt64) :
    (encode_reservation_record r digest).payload = (reservation_fields r digest).flatten := by
  simp [encode_reservation_record, reservation_fields]

theorem ReadsAs.reservation {r : AuthorityReservation} (h : r.machine) (digest : UInt64) :
    ReadsAs read_reservation (reservation_fields r digest).flatten
      (do check_reservation_lists r
          .ok (r, digest)) := by
  simp only [check_reservation_lists, bind_assoc]
  refine Reads.field (ReadsAs.layout (by decide) _) ?_
  refine Reads.field (ReadsAs.id h.id) ?_
  refine Reads.field (ReadsAs.id h.job) ?_
  refine Reads.field (ReadsAs.id h.generation) ?_
  refine Reads.field (ReadsAs.attempt_id h.attempt) ?_
  refine Reads.field (ReadsAs.incarnation h.owner) ?_
  refine Reads.guarded (ReadsAs.target_list h.targets _) ?_
  refine Reads.guarded (ReadsAs.list_ok (g := fun d => d) h.domains.1
    (fun d hd => ReadsAs.domain_id (h.domains.2 d hd)) _ _) ?_
  refine Reads.guarded (ReadsAs.id_list h.pools _ _) ?_
  refine Reads.field (ReadsAs.id h.revision) ?_
  refine Reads.field (ReadsAs.i64 h.granted_at) ?_
  refine Reads.field (ReadsAs.i64 h.expires_at) ?_
  refine Reads.field (ReadsAs.digest digest) ?_
  rw [List.map_id', UInt64.ofNat_toNat]
  exact Reads.pure (r, digest)

/-- What a reservation record decodes to. -/
theorem decode_encode_reservation {r : AuthorityReservation} (h : r.machine) (digest : UInt64) :
    decode_reservation_record (encode_reservation_record r digest) =
      (do check_reservation_record r
          .ok (r, digest)) := by
  have hread := (ReadsAs.reservation h digest).decode
    (corrupt (text "reservation record is malformed"))
  rw [← encode_reservation_record_payload] at hread
  simp only [decode_reservation_record,
    refuse_if_type (show (encode_reservation_record r digest).type = .Reservation from rfl), hread,
    check_reservation_record, bind_assoc, Result.ok_bind]

/-! ## Quarantines -/

def quarantine_digest (q : QuarantineRecord) : UInt64 :=
  let d := (({} : Digest).update (text "mf.quarantine.v1")).update_u64 q.id.value
  let d := (d.update_u32 q.target.kind.code).update_u32 q.target.index
  let d := (d.update_u64 q.job.value).update_u64 q.generation.value
  let d := ((d.update_u32 q.reason.code).update q.detail).update_i64 q.created_at
  (((d.update q.created_by.to_string).update_bool q.cleared).update_i64 q.cleared_at).value

def kQuarantineLayout : Nat := 1

def encode_quarantine_record (q : QuarantineRecord) (digest : UInt64) : Record :=
  let w := write_target_id ((({} : ByteWriter).u16 kQuarantineLayout).u64 q.id.value) q.target
  let w := ((w.u64 q.job.value).u64 q.generation.value).u32 q.reason.code
  let w := (w.str q.detail limits.kMaxDetailLength).i64 q.created_at
  let w := ((write_incarnation w q.created_by).boolean q.cleared).i64 q.cleared_at
  ⟨.Quarantine, ((w.str q.cleared_by limits.kMaxNameLength).u64 digest.toNat).buffer⟩

def read_quarantine : Reader (QuarantineRecord × UInt64) := do
  Reader.layout kQuarantineLayout (text "quarantine")
  let id ← Reader.id
  let target ← read_target_id
  let job ← Reader.id
  let generation ← Reader.id
  let reason ← Reader.u32
  Reader.refuse (reason ≥ kBlockReasonCount)
    (corrupt (text "quarantine record carries an unknown reason"))
  let detail ← Reader.str limits.kMaxDetailLength
  let created_at ← Reader.i64
  let created_by ← read_incarnation
  let cleared ← Reader.boolean
  let cleared_at ← Reader.i64
  let cleared_by ← Reader.str limits.kMaxNameLength
  let digest ← Reader.u64
  pure ({ id, target, job, generation, reason := BlockReason.ofCode reason, detail, created_at,
          created_by, cleared, cleared_at, cleared_by }, UInt64.ofNat digest)

def decode_quarantine_record (record : Record) : Result (QuarantineRecord × UInt64) := do
  refuse_if (record.type ≠ .Quarantine)
    (invalid_argument (text "record is not a quarantine record"))
  let (q, digest) ← read_quarantine.decode (corrupt (text "quarantine record is malformed"))
    record.payload
  refuse_if (!q.id.valid || !q.target.valid)
    (corrupt (text "quarantine record is not well formed"))
  .ok (q, digest)

structure QuarantineRecord.machine (q : QuarantineRecord) : Prop where
  id : q.id.machine
  target : q.target.machine
  job : q.job.machine
  generation : q.generation.machine
  created_at : i64_range q.created_at
  created_by : q.created_by.machine
  cleared_at : i64_range q.cleared_at

/-- The identities `decode_quarantine_record` asks for. -/
def check_quarantine_record (q : QuarantineRecord) : Status :=
  refuse_if (!q.id.valid || !q.target.valid)
    (corrupt (text "quarantine record is not well formed"))

/-- A quarantine with its strings as the record keeps them. -/
def clipped_quarantine (q : QuarantineRecord) : QuarantineRecord :=
  { q with
    detail := clip limits.kMaxDetailLength q.detail
    cleared_by := clip limits.kMaxNameLength q.cleared_by }

def quarantine_fields (q : QuarantineRecord) (digest : UInt64) : List Text :=
  [u16Bytes kQuarantineLayout, u64Bytes q.id.value, target_bytes q.target, u64Bytes q.job.value,
   u64Bytes q.generation.value, u32Bytes q.reason.code, strBytes limits.kMaxDetailLength q.detail,
   i64Bytes q.created_at, incarnation_bytes q.created_by, boolBytes q.cleared,
   i64Bytes q.cleared_at, strBytes limits.kMaxNameLength q.cleared_by, u64Bytes digest.toNat]

theorem encode_quarantine_record_payload (q : QuarantineRecord) (digest : UInt64) :
    (encode_quarantine_record q digest).payload = (quarantine_fields q digest).flatten := by
  have hdetail : limits.kMaxDetailLength ≤ 65535 := by decide
  have hname : limits.kMaxNameLength ≤ 65535 := by decide
  simp [encode_quarantine_record, quarantine_fields, ByteWriter.str_buffer, hdetail, hname]

theorem ReadsAs.quarantine {q : QuarantineRecord} (h : q.machine) (digest : UInt64) :
    ReadsAs read_quarantine (quarantine_fields q digest).flatten
      (.ok (clipped_quarantine q, digest)) := by
  have hreason : q.reason.code < u32_range := by cases q.reason <;> decide
  have hknown : decide (q.reason.code ≥ kBlockReasonCount) = false := by
    cases q.reason <;> decide
  refine Reads.field (ReadsAs.layout (by decide) _) ?_
  refine Reads.field (ReadsAs.id h.id) ?_
  refine Reads.field (ReadsAs.target_id h.target) ?_
  refine Reads.field (ReadsAs.id h.job) ?_
  refine Reads.field (ReadsAs.id h.generation) ?_
  refine Reads.field (ReadsAs.u32 hreason) ?_
  refine Reads.pass (ReadsAs.accepts hknown _) ?_
  refine Reads.field (ReadsAs.str (by decide) q.detail) ?_
  refine Reads.field (ReadsAs.i64 h.created_at) ?_
  refine Reads.field (ReadsAs.incarnation h.created_by) ?_
  refine Reads.field (ReadsAs.boolean q.cleared) ?_
  refine Reads.field (ReadsAs.i64 h.cleared_at) ?_
  refine Reads.field (ReadsAs.str (by decide) q.cleared_by) ?_
  refine Reads.field (ReadsAs.digest digest) ?_
  rw [BlockReason.ofCode_code, UInt64.ofNat_toNat]
  exact Reads.pure (clipped_quarantine q, digest)

/-- What a quarantine record decodes to. -/
theorem decode_encode_quarantine {q : QuarantineRecord} (h : q.machine) (digest : UInt64) :
    decode_quarantine_record (encode_quarantine_record q digest) =
      (do check_quarantine_record q
          .ok (clipped_quarantine q, digest)) := by
  have hread := (ReadsAs.quarantine h digest).decode
    (corrupt (text "quarantine record is malformed"))
  rw [← encode_quarantine_record_payload] at hread
  simp only [decode_quarantine_record,
    refuse_if_type (show (encode_quarantine_record q digest).type = .Quarantine from rfl), hread,
    check_quarantine_record, Result.ok_bind, clipped_quarantine]

/-! ## Evidence -/

def evidence_digest (r : EvidenceRecord) : UInt64 :=
  let d := (({} : Digest).update (text "mf.evidence.v1")).update_u32 r.key.kind.code
  let d := (d.update r.key.subject.to_string).update_u64 r.key.source.value
  let d := ((d.update_u64 r.revision.value).update_i64 r.observed_at).update_i64 r.ttl
  let d := (d.update_u32 r.klass.code).update_u32 r.payload.health.code
  let d := (d.update_u32 r.payload.available_units).update_u32 r.payload.total_units
  let d := (d.update_bool r.payload.result).update_u32 r.payload.count
  ((d.update r.observed_by.to_string).update_u64 r.job.value).value

def kEvidenceLayout : Nat := 1

def encode_evidence_record (r : EvidenceRecord) (digest : UInt64) : Record :=
  let w := ((({} : ByteWriter).u16 kEvidenceLayout).u64 r.id.value).u32 r.key.kind.code
  let w := write_target_id (w.u32 r.key.subject.kind.code) r.key.subject.target
  let w := (write_domain_id w r.key.subject.domain).u64 r.key.subject.pool.value
  let w := (w.u64 r.key.subject.contract.value).u64 r.key.source.value
  let w := ((w.u64 r.revision.value).i64 r.observed_at).i64 r.ttl
  let w := (w.u32 r.klass.code).u32 r.payload.health.code
  let w := (w.u32 r.payload.available_units).u32 r.payload.total_units
  let w := write_incarnation ((w.boolean r.payload.result).u32 r.payload.count) r.observed_by
  ⟨.Evidence, ((write_attempt_id (w.u64 r.job.value) r.attempt).u64 digest.toNat).buffer⟩

def read_evidence : Reader (EvidenceRecord × UInt64) := do
  Reader.layout kEvidenceLayout (text "evidence")
  let id ← Reader.id
  let kind ← Reader.u32
  let subject_kind ← Reader.u32
  Reader.refuse (kind = 0 ∨ kind > kEvidenceKindCount ∨ subject_kind > SubjectKind.Global.code)
    (corrupt (text "evidence record has an unknown key kind"))
  let target ← read_target_id
  let domain ← read_domain_id
  let pool ← Reader.id
  let contract ← Reader.id
  let source ← Reader.id
  let revision ← Reader.id
  let observed_at ← Reader.i64
  let ttl ← Reader.i64
  let klass ← Reader.u32
  let health ← Reader.u32
  Reader.refuse (klass > EvidenceClass.Durable.code ∨ health > Health.Retired.code)
    (corrupt (text "evidence record has an unknown enumeration"))
  let available_units ← Reader.u32
  let total_units ← Reader.u32
  let result ← Reader.boolean
  let count ← Reader.u32
  let observed_by ← read_incarnation
  let job ← Reader.id
  let attempt ← read_attempt_id
  let digest ← Reader.u64
  let subject := { kind := SubjectKind.ofCode subject_kind, target, domain, pool, contract }
  let key := { kind := EvidenceKind.ofCode kind, subject, source }
  let payload := { health := Health.ofCode health, available_units, total_units, result, count }
  pure ({ id, key, revision, observed_at, ttl, klass := EvidenceClass.ofCode klass, payload,
          observed_by, job, attempt }, UInt64.ofNat digest)

def decode_evidence_record (record : Record) : Result (EvidenceRecord × UInt64) := do
  refuse_if (record.type ≠ .Evidence) (invalid_argument (text "record is not an evidence record"))
  let (r, digest) ← read_evidence.decode (corrupt (text "evidence record is malformed"))
    record.payload
  refuse_if (!r.valid) (corrupt (text "evidence record is not well formed"))
  .ok (r, digest)

structure EvidenceRecord.machine (r : EvidenceRecord) : Prop where
  id : r.id.machine
  target : r.key.subject.target.machine
  domain : r.key.subject.domain.machine
  pool : r.key.subject.pool.machine
  contract : r.key.subject.contract.machine
  source : r.key.source.machine
  revision : r.revision.machine
  observed_at : i64_range r.observed_at
  ttl : i64_range r.ttl
  available_units : r.payload.available_units < u32_range
  total_units : r.payload.total_units < u32_range
  count : r.payload.count < u32_range
  observed_by : r.observed_by.machine
  job : r.job.machine
  attempt : r.attempt.machine

def evidence_fields (r : EvidenceRecord) (digest : UInt64) : List Text :=
  [u16Bytes kEvidenceLayout, u64Bytes r.id.value, u32Bytes r.key.kind.code,
   u32Bytes r.key.subject.kind.code, target_bytes r.key.subject.target,
   domain_bytes r.key.subject.domain, u64Bytes r.key.subject.pool.value,
   u64Bytes r.key.subject.contract.value, u64Bytes r.key.source.value, u64Bytes r.revision.value,
   i64Bytes r.observed_at, i64Bytes r.ttl, u32Bytes r.klass.code, u32Bytes r.payload.health.code,
   u32Bytes r.payload.available_units, u32Bytes r.payload.total_units, boolBytes r.payload.result,
   u32Bytes r.payload.count, incarnation_bytes r.observed_by, u64Bytes r.job.value,
   attempt_bytes r.attempt, u64Bytes digest.toNat]

theorem encode_evidence_record_payload (r : EvidenceRecord) (digest : UInt64) :
    (encode_evidence_record r digest).payload = (evidence_fields r digest).flatten := by
  simp [encode_evidence_record, evidence_fields]

theorem ReadsAs.evidence {r : EvidenceRecord} (h : r.machine) (digest : UInt64) :
    ReadsAs read_evidence (evidence_fields r digest).flatten (.ok (r, digest)) := by
  have hkind : r.key.kind.code < u32_range := by cases r.key.kind <;> decide
  have hsubject : r.key.subject.kind.code < u32_range := by cases r.key.subject.kind <;> decide
  have hkey : decide (r.key.kind.code = 0 ∨ r.key.kind.code > kEvidenceKindCount ∨
      r.key.subject.kind.code > SubjectKind.Global.code) = false := by
    cases r.key.kind <;> cases r.key.subject.kind <;> decide
  have hklass : r.klass.code < u32_range := by cases r.klass <;> decide
  have hhealth : r.payload.health.code < u32_range := by cases r.payload.health <;> decide
  have hknown : decide (r.klass.code > EvidenceClass.Durable.code ∨
      r.payload.health.code > Health.Retired.code) = false := by
    cases r.klass <;> cases r.payload.health <;> decide
  refine Reads.field (ReadsAs.layout (by decide) _) ?_
  refine Reads.field (ReadsAs.id h.id) ?_
  refine Reads.field (ReadsAs.u32 hkind) ?_
  refine Reads.field (ReadsAs.u32 hsubject) ?_
  refine Reads.pass (ReadsAs.accepts hkey _) ?_
  refine Reads.field (ReadsAs.target_id h.target) ?_
  refine Reads.field (ReadsAs.domain_id h.domain) ?_
  refine Reads.field (ReadsAs.id h.pool) ?_
  refine Reads.field (ReadsAs.id h.contract) ?_
  refine Reads.field (ReadsAs.id h.source) ?_
  refine Reads.field (ReadsAs.id h.revision) ?_
  refine Reads.field (ReadsAs.i64 h.observed_at) ?_
  refine Reads.field (ReadsAs.i64 h.ttl) ?_
  refine Reads.field (ReadsAs.u32 hklass) ?_
  refine Reads.field (ReadsAs.u32 hhealth) ?_
  refine Reads.pass (ReadsAs.accepts hknown _) ?_
  refine Reads.field (ReadsAs.u32 h.available_units) ?_
  refine Reads.field (ReadsAs.u32 h.total_units) ?_
  refine Reads.field (ReadsAs.boolean _) ?_
  refine Reads.field (ReadsAs.u32 h.count) ?_
  refine Reads.field (ReadsAs.incarnation h.observed_by) ?_
  refine Reads.field (ReadsAs.id h.job) ?_
  refine Reads.field (ReadsAs.attempt_id h.attempt) ?_
  refine Reads.field (ReadsAs.digest digest) ?_
  simp only [SubjectKind.ofCode_code, EvidenceKind.ofCode_code, Health.ofCode_code,
    EvidenceClass.ofCode_code, UInt64.ofNat_toNat]
  exact Reads.pure (r, digest)

/-- What an evidence record decodes to. -/
theorem decode_encode_evidence {r : EvidenceRecord} (h : r.machine) (digest : UInt64) :
    decode_evidence_record (encode_evidence_record r digest) =
      (do refuse_if (!r.valid) (corrupt (text "evidence record is not well formed"))
          .ok (r, digest)) := by
  have hread := (ReadsAs.evidence h digest).decode (corrupt (text "evidence record is malformed"))
  rw [← encode_evidence_record_payload] at hread
  simp only [decode_evidence_record,
    refuse_if_type (show (encode_evidence_record r digest).type = .Evidence from rfl), hread,
    Result.ok_bind]

/-! ## Boots -/

def kBootLayout : Nat := 1

def encode_boot_record (incarnation : ControllerIncarnation) (prior_epoch : BootEpoch) : Record :=
  let w := write_incarnation (({} : ByteWriter).u16 kBootLayout) incarnation
  ⟨.Boot, (w.u64 prior_epoch.value).buffer⟩

def read_boot : Reader (ControllerIncarnation × BootEpoch) := do
  Reader.layout kBootLayout (text "boot")
  let incarnation ← read_incarnation
  let prior_epoch ← Reader.id
  pure (incarnation, prior_epoch)

def decode_boot_record (record : Record) : Result (ControllerIncarnation × BootEpoch) := do
  refuse_if (record.type ≠ .Boot) (invalid_argument (text "record is not a boot record"))
  let (incarnation, prior_epoch) ← read_boot.decode (corrupt (text "boot record is malformed"))
    record.payload
  refuse_if (!incarnation.valid) (corrupt (text "boot record is not well formed"))
  .ok (incarnation, prior_epoch)

theorem encode_boot_record_payload (i : ControllerIncarnation) (prior : BootEpoch) :
    (encode_boot_record i prior).payload =
      [u16Bytes kBootLayout, incarnation_bytes i, u64Bytes prior.value].flatten := by
  simp [encode_boot_record]

/-- What a boot record decodes to. -/
theorem decode_encode_boot {i : ControllerIncarnation} {prior : BootEpoch} (h : i.machine)
    (hprior : prior.machine) :
    decode_boot_record (encode_boot_record i prior) =
      (do refuse_if (!i.valid) (corrupt (text "boot record is not well formed"))
          .ok (i, prior)) := by
  have hboot : ReadsAs read_boot
      [u16Bytes kBootLayout, incarnation_bytes i, u64Bytes prior.value].flatten
      (.ok (i, prior)) := by
    refine Reads.field (ReadsAs.layout (by decide) _) ?_
    refine Reads.field (ReadsAs.incarnation h) ?_
    refine Reads.field (ReadsAs.id hprior) ?_
    exact Reads.pure (i, prior)
  have hread := hboot.decode (corrupt (text "boot record is malformed"))
  rw [← encode_boot_record_payload] at hread
  simp only [decode_boot_record,
    refuse_if_type (show (encode_boot_record i prior).type = .Boot from rfl), hread,
    Result.ok_bind]

/-! ## Erasures -/

/-- A record that names the identity to forget. -/
def encode_erased {tag : IdTag} (type : RecordType) (id : StrongId tag) : Record :=
  ⟨type, (({} : ByteWriter).u64 id.value).buffer⟩

def decode_erased {tag : IdTag} (type : RecordType) (wrong_type malformed : Text)
    (record : Record) : Result (StrongId tag) := do
  refuse_if (record.type ≠ type) (invalid_argument wrong_type)
  let id ← Reader.id.decode (corrupt malformed) record.payload
  refuse_if (!id.valid) (corrupt malformed)
  .ok id

theorem decode_encode_erased {tag : IdTag} {id : StrongId tag} (h : id.machine) (type : RecordType)
    (wrong_type malformed : Text) :
    decode_erased type wrong_type malformed (encode_erased type id) =
      (do refuse_if (!id.valid) (corrupt malformed)
          .ok id) := by
  have hread := (ReadsAs.id h).decode (corrupt malformed)
  have hpayload : (encode_erased type id).payload = u64Bytes id.value := by simp [encode_erased]
  simp only [decode_erased, refuse_if_type (show (encode_erased type id).type = type from rfl),
    hpayload, hread, Result.ok_bind]

/-- An erasure record decodes to its identity, unless that is the invalid one. -/
theorem decode_encode_erased_cases {tag : IdTag} {id : StrongId tag} (h : id.machine)
    (type : RecordType) (wrong_type malformed : Text) :
    id.valid = true ∧ decode_erased type wrong_type malformed (encode_erased type id) = .ok id ∨
      id.valid = false ∧ ∃ e, (decode_erased type wrong_type malformed
        (encode_erased type id) : Result (StrongId tag)) = .error e := by
  rw [decode_encode_erased h]
  cases id.valid with
  | true => exact .inl ⟨rfl, rfl⟩
  | false => exact .inr ⟨rfl, _, rfl⟩

def encode_job_erased_record (job : JobId) : Record := encode_erased .JobErased job

def decode_job_erased_record : Record → Result JobId :=
  decode_erased .JobErased (text "record is not a job-erased record")
    (text "job-erased record is malformed")

def encode_reservation_erased_record (id : AuthorityId) : Record :=
  encode_erased .ReservationErased id

def decode_reservation_erased_record : Record → Result AuthorityId :=
  decode_erased .ReservationErased (text "record is not a reservation-erased record")
    (text "reservation-erased record is malformed")

def encode_lease_erased_record (id : DrainLeaseId) : Record := encode_erased .LeaseErased id

def decode_lease_erased_record : Record → Result DrainLeaseId :=
  decode_erased .LeaseErased (text "record is not a lease-erased record")
    (text "lease-erased record is malformed")

end MaintenanceFabric
