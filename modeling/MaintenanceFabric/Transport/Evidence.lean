import MaintenanceFabric.Transport.Protocol

/-! # Evidence on the wire

    The body of `Observe`.  It is shorter than the journal record of the same
    evidence: the subject travels as its kind and its target, and neither the
    domain, pool or contract of the subject nor the attempt is sent.  The
    decoder leaves them at their defaults, so observations of two pools reach
    the store under one key.
-/

namespace MaintenanceFabric

open Lib

namespace Transport

def encode_evidence_body (evidence : EvidenceRecord) : Text :=
  let w := (({} : ByteWriter).u16 kBodyLayout).u32 evidence.key.kind.code
  let w := write_target (w.u32 evidence.key.subject.kind.code) evidence.key.subject.target
  let w := (w.u64 evidence.key.source.value).u64 evidence.revision.value
  let w := ((w.i64 evidence.observed_at).i64 evidence.ttl).u32 evidence.klass.code
  let w := (w.u32 evidence.payload.health.code).u32 evidence.payload.available_units
  let w := (w.u32 evidence.payload.total_units).boolean evidence.payload.result
  ((w.u32 evidence.payload.count).u64 evidence.job.value).buffer

def read_evidence_body : Reader EvidenceRecord := do
  read_body_layout (corrupt (text "evidence body layout is not supported"))
  let kind ← Reader.u32
  let subject_kind ← Reader.u32
  Reader.refuse (kind = 0 ∨ kind > kEvidenceKindCount ∨ subject_kind > SubjectKind.Global.code)
    (corrupt (text "evidence body carries an unknown key"))
  let target ← read_target
  let source ← Reader.id
  let revision ← Reader.id
  let observed_at ← Reader.i64
  let ttl ← Reader.i64
  let klass ← Reader.u32
  let health ← Reader.u32
  Reader.refuse (klass > EvidenceClass.Durable.code ∨ health > Health.Retired.code)
    (corrupt (text "evidence body carries an unknown enumeration"))
  let available_units ← Reader.u32
  let total_units ← Reader.u32
  let result ← Reader.boolean
  let count ← Reader.u32
  let job ← Reader.id
  let subject := { kind := SubjectKind.ofCode subject_kind, target }
  let key := { kind := EvidenceKind.ofCode kind, subject, source }
  let payload := { health := Health.ofCode health, available_units, total_units, result, count }
  pure { key, revision, observed_at, ttl, klass := EvidenceClass.ofCode klass, payload, job }

def decode_evidence_body : Text → Result EvidenceRecord :=
  read_evidence_body.decode (corrupt (text "evidence body is malformed"))

/-! ## What arrives -/

/-- The key as the receiver sees it. -/
def carried_key (key : EvidenceKey) : EvidenceKey :=
  { kind := key.kind, subject := { kind := key.subject.kind, target := key.subject.target }
    source := key.source }

/-- The record as the receiver sees it. -/
def carried (r : EvidenceRecord) : EvidenceRecord :=
  { key := carried_key r.key, revision := r.revision, observed_at := r.observed_at, ttl := r.ttl
    klass := r.klass, payload := r.payload, job := r.job }

theorem decode_encode_evidence_body {r : EvidenceRecord} (h : r.machine) :
    decode_evidence_body (encode_evidence_body r) = .ok (carried r) := by
  have hkind : r.key.kind.code < u32_range := by cases r.key.kind <;> decide
  have hsubject : r.key.subject.kind.code < u32_range := by cases r.key.subject.kind <;> decide
  have hkey : decide (r.key.kind.code = 0 ∨ r.key.kind.code > kEvidenceKindCount ∨
      r.key.subject.kind.code > SubjectKind.Global.code) = false := by
    cases r.key.kind <;> cases r.key.subject.kind <;> decide
  have hklass : r.klass.code < u32_range := by cases r.klass <;> decide
  have hhealth : r.payload.health.code < u32_range := by cases r.payload.health <;> decide
  have hknown : decide (r.klass.code > EvidenceClass.Durable.code ∨
      r.payload.health.code > Health.Retired.code) = false := by
    cases r.klass <;> cases r.payload.health <;> decide
  have hbytes : encode_evidence_body r = [u16Bytes kBodyLayout, u32Bytes r.key.kind.code,
      u32Bytes r.key.subject.kind.code, target_bytes r.key.subject.target,
      u64Bytes r.key.source.value, u64Bytes r.revision.value, i64Bytes r.observed_at,
      i64Bytes r.ttl, u32Bytes r.klass.code, u32Bytes r.payload.health.code,
      u32Bytes r.payload.available_units, u32Bytes r.payload.total_units,
      boolBytes r.payload.result, u32Bytes r.payload.count, u64Bytes r.job.value].flatten := by
    simp [encode_evidence_body]
  rw [hbytes]
  apply ReadsAs.decode
  refine Reads.field (reads_body_layout _) ?_
  refine Reads.field (ReadsAs.u32 hkind) ?_
  refine Reads.field (ReadsAs.u32 hsubject) ?_
  refine Reads.pass (ReadsAs.accepts hkey _) ?_
  refine Reads.field (ReadsAs.target_id h.target) ?_
  refine Reads.field (ReadsAs.id h.source) ?_
  refine Reads.field (ReadsAs.id h.revision) ?_
  refine Reads.field (ReadsAs.i64 h.observed_at) ?_
  refine Reads.field (ReadsAs.i64 h.ttl) ?_
  refine Reads.field (ReadsAs.u32 hklass) ?_
  refine Reads.field (ReadsAs.u32 hhealth) ?_
  refine Reads.pass (ReadsAs.accepts hknown _) ?_
  refine Reads.field (ReadsAs.u32 h.available_units) ?_
  refine Reads.field (ReadsAs.u32 h.total_units) ?_
  refine Reads.field (ReadsAs.boolean _) ?_
  refine Reads.field (ReadsAs.u32 h.count) ?_
  refine Reads.field (ReadsAs.id h.job) ?_
  simp only [SubjectKind.ofCode_code, EvidenceKind.ofCode_code, Health.ofCode_code,
    EvidenceClass.ofCode_code]
  exact Reads.pure (carried r)

/-! ## When the meaning survives -/

/-- What a receiver has to find unchanged in an observation. -/
structure SameMeaning (r r' : EvidenceRecord) : Prop where
  key : r'.key = r.key
  revision : r'.revision = r.revision
  observed_at : r'.observed_at = r.observed_at
  ttl : r'.ttl = r.ttl
  klass : r'.klass = r.klass
  payload : r'.payload = r.payload
  job : r'.job = r.job
  attempt : r'.attempt = r.attempt

/-- The body of `r` decodes, to a record that means the same. -/
def Understood (r : EvidenceRecord) : Prop :=
  ∃ r', decode_evidence_body (encode_evidence_body r) = .ok r' ∧ SameMeaning r r'

/-- The subject names no domain, pool or contract, and no attempt is bound to the observation. -/
structure Plain (r : EvidenceRecord) : Prop where
  domain : r.key.subject.domain = {}
  pool : r.key.subject.pool = ⟨0⟩
  contract : r.key.subject.contract = ⟨0⟩
  attempt : r.attempt = {}

theorem carried_key_eq_iff (key : EvidenceKey) :
    carried_key key = key ↔
      key.subject.domain = {} ∧ key.subject.pool = ⟨0⟩ ∧ key.subject.contract = ⟨0⟩ := by
  constructor
  · intro h
    have hsubject := congrArg EvidenceKey.subject h
    exact ⟨(congrArg EvidenceSubject.domain hsubject).symm,
      (congrArg EvidenceSubject.pool hsubject).symm,
      (congrArg EvidenceSubject.contract hsubject).symm⟩
  · rintro ⟨hdomain, hpool, hcontract⟩
    refine EvidenceKey.ext rfl ?_ rfl
    exact EvidenceSubject.ext rfl rfl hdomain.symm hpool.symm hcontract.symm

/-- Evidence keeps its meaning on the wire exactly when there is nothing in it that the body
    leaves out. -/
theorem evidence_understood_iff (r : EvidenceRecord) (h : r.machine) :
    Understood r ↔ Plain r := by
  have hread := decode_encode_evidence_body h
  constructor
  · rintro ⟨r', hr', hsame⟩
    rw [hread] at hr'
    cases hr'
    obtain ⟨hdomain, hpool, hcontract⟩ := (carried_key_eq_iff r.key).mp hsame.key
    exact ⟨hdomain, hpool, hcontract, hsame.attempt.symm⟩
  · intro hplain
    refine ⟨carried r, hread, ?_⟩
    constructor
    case key => exact (carried_key_eq_iff r.key).mpr ⟨hplain.domain, hplain.pool, hplain.contract⟩
    case attempt => exact hplain.attempt.symm
    all_goals rfl

/-- The redundancy of a pool, as its second source reports it. -/
def pool_report (pool : PoolId) : EvidenceRecord :=
  { id := ⟨1⟩, key := { kind := .PoolRedundancy, subject := { kind := .Pool, pool }, source := ⟨2⟩ }
    revision := ⟨1⟩, observed_by := ⟨⟨1⟩, ⟨1⟩, 1⟩ }

def target_report : EvidenceRecord :=
  { id := ⟨1⟩, key := { subject := .of ⟨.Rack, 3⟩, source := ⟨2⟩ }, revision := ⟨1⟩
    observed_by := ⟨⟨1⟩, ⟨1⟩, 1⟩ }

theorem target_report_understood : Understood target_report := by
  refine (evidence_understood_iff target_report ?_).mpr ?_
  · constructor <;> decide
  · constructor <;> rfl

/-- Reports about two pools are both valid, and arrive under the same key. -/
theorem pool_reports_collide :
    ¬ ((∀ r : EvidenceRecord, r.valid = true → r.machine → Understood r) ∧
        ∀ r r' a a' : EvidenceRecord, r.valid = true → r'.valid = true →
          r.key.subject ≠ r'.key.subject →
          decode_evidence_body (encode_evidence_body r) = .ok a →
          decode_evidence_body (encode_evidence_body r') = .ok a' → a.key ≠ a'.key) := by
  rintro ⟨-, hdistinct⟩
  have hone : (pool_report ⟨1⟩).machine := by constructor <;> decide
  have htwo : (pool_report ⟨2⟩).machine := by constructor <;> decide
  exact hdistinct (pool_report ⟨1⟩) (pool_report ⟨2⟩) _ _ (by decide) (by decide) (by decide)
    (decode_encode_evidence_body hone) (decode_encode_evidence_body htwo) rfl

end Transport

end MaintenanceFabric
