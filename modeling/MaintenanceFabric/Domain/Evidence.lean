import MaintenanceFabric.Domain.Identity
import MaintenanceFabric.Lib.Table
import Mathlib.Data.List.Lex

/-! # Evidence

    An aged observation, keyed by what it is about and who reported it.  The
    store keeps the newest record per key; `evaluate` decides whether a record
    may still authorize anything at a given instant, for a given incarnation
    and, optionally, for a given job and attempt.
-/

namespace MaintenanceFabric

open Lib

inductive EvidenceKind where
  | TargetHealth | PoolRedundancy | ContractAvailability | DrainLeaseState | RestorationCheck
  | MaintenanceCompletion | ControlPlaneQuorum
  deriving DecidableEq, Repr

def EvidenceKind.code : EvidenceKind → Nat
  | .TargetHealth => 1
  | .PoolRedundancy => 2
  | .ContractAvailability => 3
  | .DrainLeaseState => 4
  | .RestorationCheck => 5
  | .MaintenanceCompletion => 6
  | .ControlPlaneQuorum => 7

def EvidenceKind.to_string : EvidenceKind → Text
  | .TargetHealth => text "target-health"
  | .PoolRedundancy => text "pool-redundancy"
  | .ContractAvailability => text "contract-availability"
  | .DrainLeaseState => text "drain-lease-state"
  | .RestorationCheck => text "restoration-check"
  | .MaintenanceCompletion => text "maintenance-completion"
  | .ControlPlaneQuorum => text "control-plane-quorum"

theorem EvidenceKind.code_injective : Function.Injective EvidenceKind.code := by
  intro a b h
  cases a <;> cases b <;> first | rfl | cases h

instance : LinearOrder EvidenceKind :=
  LinearOrder.lift' EvidenceKind.code EvidenceKind.code_injective

inductive EvidenceClass where
  | Volatile | Durable
  deriving DecidableEq, Repr

/-- Every kind is volatile. -/
def default_evidence_class (_ : EvidenceKind) : EvidenceClass := .Volatile

inductive SubjectKind where
  | None | Target | Domain | Pool | Contract | Global
  deriving DecidableEq, Repr

def SubjectKind.code : SubjectKind → Nat
  | .None => 0
  | .Target => 1
  | .Domain => 2
  | .Pool => 3
  | .Contract => 4
  | .Global => 5

theorem SubjectKind.code_injective : Function.Injective SubjectKind.code := by
  intro a b h
  cases a <;> cases b <;> first | rfl | cases h

@[ext] structure EvidenceSubject where
  kind : SubjectKind := .None
  target : TargetId := {}
  domain : DomainId := {}
  pool : PoolId := ⟨0⟩
  contract : ContractId := ⟨0⟩
  deriving DecidableEq, Repr

namespace EvidenceSubject

/-- `EvidenceSubject::of`. -/
def of (id : TargetId) : EvidenceSubject := { kind := .Target, target := id }

def valid (s : EvidenceSubject) : Bool := decide (s.kind ≠ .None)

def to_string (s : EvidenceSubject) : Text :=
  match s.kind with
  | .Target => s.target.to_string
  | .Domain => s.domain.to_string
  | .Pool => s.pool.to_string
  | .Contract => s.contract.to_string
  | .Global => text "global"
  | .None => text "none"

end EvidenceSubject

@[ext] structure EvidenceKey where
  kind : EvidenceKind := .TargetHealth
  subject : EvidenceSubject := {}
  source : SourceId := ⟨0⟩
  deriving DecidableEq, Repr

namespace EvidenceKey

/-- The fields in comparison order. -/
def rank (k : EvidenceKey) : List Nat :=
  [k.kind.code, k.subject.kind.code, k.subject.target.kind.code, k.subject.target.index,
   k.subject.domain.kind.code, k.subject.domain.index, k.subject.pool.value,
   k.subject.contract.value, k.source.value]

theorem rank_injective : Function.Injective rank := by
  intro a b h
  simp only [rank, List.cons.injEq, and_true] at h
  obtain ⟨h1, h2, h3, h4, h5, h6, h7, h8, h9⟩ := h
  refine EvidenceKey.ext (EvidenceKind.code_injective h1) ?_ (StrongId.ext h9)
  exact EvidenceSubject.ext (SubjectKind.code_injective h2)
    (TargetId.ext (TargetKind.code_injective h3) h4)
    (DomainId.ext (DomainKind.code_injective h5) h6) (StrongId.ext h7) (StrongId.ext h8)

instance : LinearOrder EvidenceKey := LinearOrder.lift' rank rank_injective

def to_string (k : EvidenceKey) : Text :=
  k.kind.to_string ++ text "@" ++ k.subject.to_string ++ text "#" ++ k.source.to_string

end EvidenceKey

structure EvidencePayload where
  health : Health := .Unknown
  available_units : Nat := 0
  total_units : Nat := 0
  result : Bool := false
  count : Nat := 0
  deriving DecidableEq, Repr

structure EvidenceRecord where
  id : EvidenceId := ⟨0⟩
  key : EvidenceKey
  revision : Revision := ⟨0⟩
  observed_at : Nanos := 0
  ttl : Nanos := limits.kDefaultEvidenceTtlNanos
  klass : EvidenceClass := .Volatile
  payload : EvidencePayload := {}
  observed_by : ControllerIncarnation := {}
  job : JobId := ⟨0⟩
  attempt : AttemptId := {}
  deriving DecidableEq, Repr

def EvidenceRecord.valid (r : EvidenceRecord) : Bool :=
  r.id.valid && r.revision.valid && r.key.source.valid && r.key.subject.valid &&
    r.observed_by.valid && decide (r.ttl > 0) && decide (r.ttl ≤ limits.kMaxEvidenceTtlNanos)

/-- A restoration check that says no. -/
def EvidenceRecord.refutes (r : EvidenceRecord) : Bool :=
  decide (r.key.kind = .RestorationCheck) && !r.payload.result

inductive FreshnessState where
  | Fresh | Missing | Expired | FutureDated | ForeignIncarnation | AttemptMismatch | JobMismatch
  deriving DecidableEq, Repr

def FreshnessState.to_string : FreshnessState → Text
  | .Fresh => text "fresh"
  | .Missing => text "missing"
  | .Expired => text "expired"
  | .FutureDated => text "future-dated"
  | .ForeignIncarnation => text "foreign-incarnation"
  | .AttemptMismatch => text "attempt-mismatch"
  | .JobMismatch => text "job-mismatch"

structure Freshness where
  state : FreshnessState := .Missing
  age : Nanos := 0
  ttl : Nanos := 0
  detail : Text := []

def Freshness.fresh (f : Freshness) : Bool := f.state == .Fresh

/-- What is asked of the store; an invalid `job` or `attempt` means "do not care". -/
structure EvidenceQuery where
  key : EvidenceKey
  current : ControllerIncarnation
  now : Nanos
  job : JobId := ⟨0⟩
  attempt : AttemptId := {}

/-! ## The store -/

structure EvidenceStore where
  records : Table EvidenceRecord.key := Table.empty
  capacity : Nat := limits.kMaxEvidenceRecords

namespace EvidenceStore

/-- The capacity the constructor settles on. -/
def bound (capacity : Nat) : Nat :=
  if capacity = 0 then 1 else min capacity limits.kMaxEvidenceRecords

def find (s : EvidenceStore) (key : EvidenceKey) : Option EvidenceRecord := s.records.find key

/-- Is the record past its life when a record observed at `at_` arrives? -/
def evictable (at_ : Nanos) (r : EvidenceRecord) : Bool := decide (r.observed_at + r.ttl ≤ at_)

/-- Accept a record, or say why not. A new key in a full store first evicts every record that
    had expired by the newcomer's own observation time. -/
def observe (s : EvidenceStore) (record : EvidenceRecord) : Result EvidenceStore :=
  if record.valid = false then .error (invalid_argument (text "evidence record is not well formed"))
  else
    match s.find record.key with
    | some existing =>
        if record.revision ≤ existing.revision then
          .error (make_error .StaleRevision
            (text "evidence revision " ++ record.revision.to_string ++
            text " does not advance the stored revision " ++ existing.revision.to_string ++
            text " for " ++ record.key.to_string))
        else if record.observed_at < existing.observed_at then
          .error (make_error .StaleEvidence
            (text "evidence observation time regressed for " ++ record.key.to_string))
        else .ok { s with records := s.records.put record }
    | none =>
        if s.records.size ≥ s.capacity then
          if s.records.rows.any (evictable record.observed_at) then
            let kept := s.records.filter (fun r => !evictable record.observed_at r)
            .ok { s with records := kept.put record }
          else
            .error (make_error .LimitExceeded
              (text "evidence store is full and holds no expired record to evict"))
        else .ok { s with records := s.records.put record }

/-- Judge one record against a query. -/
def judge (record : EvidenceRecord) (query : EvidenceQuery) : Freshness :=
  let age := query.now - record.observed_at
  let ttl := record.ttl
  if query.job.valid && record.job.valid && decide (record.job ≠ query.job) then
    ⟨.JobMismatch, age, ttl, text "observation belongs to job " ++ record.job.to_string⟩
  else if query.attempt.valid && record.attempt.valid &&
    decide (record.attempt ≠ query.attempt) then
    ⟨.AttemptMismatch, age, ttl, text "observation belongs to attempt " ++ record.attempt.to_string⟩
  else if record.observed_at - query.now > limits.kMaxClockSkewNanos then
    ⟨.FutureDated, age, ttl, text "observation is dated in the future by " ++
      format_duration (record.observed_at - query.now)⟩
  else if record.klass = .Volatile ∧ is_fenced_by record.observed_by query.current = true then
    ⟨.ForeignIncarnation, age, ttl, text "observation was produced by incarnation " ++
      record.observed_by.to_string ++
      text " and must be re-observed by the running incarnation"⟩
  else if query.now > record.observed_at + record.ttl then
    ⟨.Expired, age, ttl, text "observation is " ++ format_duration age ++ text " old, ttl is " ++
      format_duration record.ttl⟩
  else ⟨.Fresh, age, ttl, text "fresh observation from " ++ query.key.source.to_string⟩

def evaluate (s : EvidenceStore) (query : EvidenceQuery) : Freshness :=
  match s.find query.key with
  | none =>
      { state := .Missing, detail := text "no observation recorded for " ++ query.key.to_string }
  | some record => judge record query

/-- The distinct sources that hold a fresh record for the subject. -/
def fresh_sources (s : EvidenceStore) (kind : EvidenceKind) (subject : EvidenceSubject)
    (current : ControllerIncarnation) (now : Nanos) : List SourceId :=
  sorted_unique ((s.records.rows.filter (fun r =>
    decide (r.key.kind = kind) && decide (r.key.subject = subject) &&
      (s.evaluate { key := r.key, current, now }).fresh)).map (fun r => r.key.source))

/-! ### What an accepted record does -/

/-- An accepted record is well formed, is stored under its key, and supersedes the record that
    was there; what else is in the store was there before. -/
theorem observe_ok {s s' : EvidenceStore} {r : EvidenceRecord} (h : s.observe r = .ok s') :
    r.valid = true ∧ s'.find r.key = some r ∧ s'.capacity = s.capacity ∧
      (∀ old, s.find r.key = some old → old.revision < r.revision) ∧
      (∀ k x, s'.find k = some x → k = r.key ∧ x = r ∨ k ≠ r.key ∧ s.find k = some x) := by
  unfold observe at h
  cases hv : r.valid with
  | false => simp [hv] at h
  | true =>
    simp only [hv] at h
    -- The record goes into a part of the old table, so the rest of the new one was there.
    have key : ∀ t : Table EvidenceRecord.key, (∀ k x, t.find k = some x → s.find k = some x) →
        ∀ k x, (t.put r).find k = some x → k = r.key ∧ x = r ∨ k ≠ r.key ∧ s.find k = some x := by
      intro t ht k x hx
      rw [Table.find_put] at hx
      by_cases hk : r.key = k
      · rw [if_pos hk] at hx
        exact .inl ⟨hk.symm, (Option.some.inj hx).symm⟩
      · rw [if_neg hk] at hx
        exact .inr ⟨Ne.symm hk, ht k x hx⟩
    cases hf : s.find r.key with
    | some old =>
      simp only [hf] at h
      split at h
      · simp at h
      · split at h
        · simp at h
        · split at h
          · simp at h
          · cases h
            refine ⟨rfl, Table.find_put_self _ _, rfl, ?_, key s.records (fun _ _ hx => hx)⟩
            rintro o ho
            cases ho
            exact not_le.mp (by assumption)
    | none =>
      simp only [hf] at h
      split at h
      · simp at h
      · split at h
        · split at h
          · cases h
            refine ⟨rfl, Table.find_put_self _ _, rfl, by simp, key _ ?_⟩
            intro k x hx
            rw [Table.find_filter] at hx
            exact (Option.filter_eq_some_iff.mp hx).1
          · simp at h
        · cases h
          exact ⟨rfl, Table.find_put_self _ _, rfl, by simp, key s.records (fun _ _ hx => hx)⟩

/-- What makes the store accept a record. -/
theorem observe_accepts {s : EvidenceStore} {r : EvidenceRecord} (hvalid : r.valid = true)
    (holder : ∀ old, s.find r.key = some old →
      old.revision < r.revision ∧ old.observed_at ≤ r.observed_at)
    (hroom : s.find r.key = none →
      s.records.size < s.capacity ∨ s.records.rows.any (evictable r.observed_at) = true) :
    ∃ s', s.observe r = .ok s' := by
  unfold observe
  rw [hvalid, if_neg (by decide)]
  cases hf : s.find r.key with
  | some old =>
    obtain ⟨hrevision, htime⟩ := holder old hf
    simp only [not_le.mpr hrevision, if_false, not_lt.mpr htime]
    exact ⟨_, rfl⟩
  | none =>
    by_cases hfull : s.records.size ≥ s.capacity
    · have hany := (hroom hf).resolve_left (not_lt.mpr hfull)
      simp only [hfull, if_true, hany]
      exact ⟨_, rfl⟩
    · simp only [hfull, if_false]
      exact ⟨_, rfl⟩

/-- A record that had not expired when another one came in is still there, unless it was under the
    same key. -/
theorem observe_keeps {s s' : EvidenceStore} {r x : EvidenceRecord} {k : EvidenceKey}
    (h : s.observe r = .ok s') (hk : k ≠ r.key) (hx : s.find k = some x)
    (hlasts : evictable r.observed_at x = false) : s'.find k = some x := by
  have hput : ∀ t : Table EvidenceRecord.key, t.find k = some x → (t.put r).find k = some x := by
    intro t ht
    rw [Table.find_put_of_ne t (Ne.symm hk)]
    exact ht
  unfold observe at h
  split at h
  · cases h
  · split at h
    · split at h
      · cases h
      · split at h
        · cases h
        · cases h
          exact hput _ hx
    · split at h
      · split at h
        · cases h
          apply hput
          rw [Table.find_filter, show s.records.find k = some x from hx]
          simp [Option.filter, hlasts]
        · cases h
      · cases h
        exact hput _ hx

end EvidenceStore

end MaintenanceFabric
