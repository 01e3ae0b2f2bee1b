import MaintenanceFabric.Guarantees.Evidence
import MaintenanceFabric.Guarantees.Lifecycle
import MaintenanceFabric.Runtime.Clocks

/-! # Time arithmetic

    Instants are 64-bit and come from reporters and from whoever calls `tick`,
    and nothing checks their range.  The sums and differences that are computed
    with them fit as long as all instants lie in one span that is not too long
    and leaves room for a life and for a lease.
-/

namespace MaintenanceFabric

open Lib

/-! ## What is computed -/

/-- The age, the lead and the end of the record, as far as `evaluate` gets. -/
def EvidenceStore.evaluate_sums (s : EvidenceStore) (query : EvidenceQuery) : List Int :=
  match s.find query.key with
  | none => []
  | some record =>
      (query.now - record.observed_at) ::
        if query.job.valid && record.job.valid && decide (record.job ≠ query.job) then []
        else if query.attempt.valid && record.attempt.valid &&
            decide (record.attempt ≠ query.attempt) then []
        else
          (record.observed_at - query.now) ::
            if record.observed_at - query.now > limits.kMaxClockSkewNanos then []
            else if record.klass = .Volatile ∧
              is_fenced_by record.observed_by query.current = true then []
            else [record.observed_at + record.ttl]

/-- A full store looks at the end of every record it holds. -/
def EvidenceStore.observe_sums (s : EvidenceStore) (record : EvidenceRecord) : List Int :=
  if record.valid = false then []
  else
    match s.find record.key with
    | some _ => []
    | none =>
        if s.records.size ≥ s.capacity then s.records.rows.map (fun r => r.observed_at + r.ttl)
        else []

/-- Compaction looks at the end of every volatile record. -/
def EvidenceStore.compact_sums (s : EvidenceStore) : List Int :=
  (s.records.rows.filter (fun r => decide (r.klass = .Volatile))).map
    (fun r => r.observed_at + r.ttl)

/-- A plan that passes every check is given an end. -/
def AuthorityAcquireContext.sums (c : AuthorityAcquireContext) : List Int :=
  if !c.job.valid || !c.generation.valid || !c.attempt.valid || c.removal_set.isEmpty ||
      !(c.readiness.unfresh c.removal_set).isEmpty || c.first_overlap.isSome ||
      !c.impact.satisfied then []
  else [c.reservation.expires_at]

/-- What is left of the lease that the job holds. -/
def Controller.prerequisites_sums (c : Controller) (job : MaintenanceJob)
    (now : Nanos) : List Int :=
  if !job.active_attempt.valid || !job.authority.valid then []
  else
    match c.store.state.ledger.find job.authority with
    | none => []
    | some held => [held.expires_at - now]

/-- All of this fits, whatever is asked at this instant of a store that holds this evidence. -/
structure TimeFits (evidence : EvidenceStore) (c : Controller) (now : Nanos) : Prop where
  evaluate : ∀ query : EvidenceQuery, query.now = now →
    ∀ x ∈ evidence.evaluate_sums query, i64_range x
  observe : ∀ record : EvidenceRecord, ∀ x ∈ evidence.observe_sums record, i64_range x
  compact : ∀ x ∈ evidence.compact_sums, i64_range x
  acquire : ∀ context : AuthorityAcquireContext, context.now = now → ∀ x ∈ context.sums, i64_range x
  prerequisites : ∀ job : MaintenanceJob, ∀ x ∈ c.prerequisites_sums job now, i64_range x

/-! ## Spans with room -/

/-- The span fits, leaves room for the longest life of a record after it, and is shorter than the
    range by the longest lease. -/
structure Span.Roomy (T : Span) : Prop where
  first : -9223372036854775808 ≤ T.first
  life : T.last + limits.kMaxEvidenceTtlNanos < 9223372036854775808
  lease : T.last - T.first + limits.kMaxAuthorityLeaseNanos < 9223372036854775808

variable {T : Span} {now : Nanos}

theorem EvidenceStore.Dated.observe_all {s : EvidenceStore} (h : s.Dated T)
    {records : List EvidenceRecord} (hrecords : ∀ r ∈ records, T.Has r.observed_at) :
    (s.observe_all records).Dated T := by
  induction records generalizing s with
  | nil => exact h
  | cons r records ih =>
    have hstep : (s.observe_in_place r).2.Dated T := by
      cases hok : Status.isOk (s.observe_in_place r).1 with
      | true =>
        obtain ⟨s', hobserve, hs'⟩ := observe_in_place_ok hok
        rw [hs']
        exact h.observe (hrecords r List.mem_cons_self) hobserve
      | false =>
        rw [observe_in_place_error hok]
        exact h
    exact ih hstep (fun x hx => hrecords x (List.mem_cons_of_mem _ hx))

namespace Span.Roomy

variable (room : T.Roomy)
include room

/-- Two instants of the span are less than the range apart. -/
theorem difference {a b : Nanos} (ha : T.Has a) (hb : T.Has b) : i64_range (a - b) := by
  have hlease : (0 : Int) ≤ limits.kMaxAuthorityLeaseNanos := by decide
  obtain ⟨ha, ha'⟩ := ha
  obtain ⟨hb, hb'⟩ := hb
  have := room.lease
  constructor
  · linarith
  · linarith

/-- A record of the span ends in the range. -/
theorem record_end {r : EvidenceRecord} (hr : T.Has r.observed_at ∧ r.valid = true) :
    i64_range (r.observed_at + r.ttl) := by
  obtain ⟨⟨hfirst, hlast⟩, hvalid⟩ := hr
  simp only [EvidenceRecord.valid, Bool.and_eq_true, decide_eq_true_eq] at hvalid
  obtain ⟨⟨_, hpositive⟩, hlong⟩ := hvalid
  have := room.first
  have := room.life
  constructor
  · linarith
  · linarith

/-- So does a lease that is granted now. -/
theorem lease_end {context : AuthorityAcquireContext} (hnow : T.Has context.now) :
    i64_range context.reservation.expires_at := by
  obtain ⟨hfirst, hlast⟩ := hnow
  have hclamp : ∀ lease : Int,
      0 ≤ clamp lease limits.kMinDrainLeaseNanos limits.kMaxAuthorityLeaseNanos ∧
      clamp lease limits.kMinDrainLeaseNanos limits.kMaxAuthorityLeaseNanos ≤
        limits.kMaxEvidenceTtlNanos := by
    intro lease
    unfold clamp
    split
    · decide
    · next hmin =>
      have hmin : limits.kMinDrainLeaseNanos ≤ lease := not_lt.mp hmin
      split
      · decide
      · next hmax =>
        have hmax : lease ≤ limits.kMaxAuthorityLeaseNanos := not_lt.mp hmax
        exact ⟨le_trans (by decide) hmin, le_trans hmax (by decide)⟩
  obtain ⟨hpositive, hshort⟩ := hclamp context.policy.authority_lease
  have := room.first
  have := room.life
  show i64_range (context.now + _)
  constructor
  · linarith
  · linarith

/-- What is left of a lease of the span fits. -/
theorem lease_left {r : AuthorityReservation} (hr : r.Ends T) (hnow : T.Has now) :
    i64_range (r.expires_at - now) := by
  have hlease : (0 : Int) ≤ limits.kMaxAuthorityLeaseNanos := by decide
  obtain ⟨hfirst, hlast⟩ := hr
  obtain ⟨hnow, hnow'⟩ := hnow
  have := room.lease
  constructor
  · linarith
  · linarith

/-- Whatever is dated in the span is reckoned with in the range. -/
theorem fits {evidence : EvidenceStore} {c : Controller} (hevidence : evidence.Dated T)
    (hledger : c.world.ledger.Dated T) (hnow : T.Has now) : TimeFits evidence c now where
  -- The sums the source stops short of are not made: each is bounded where it is reached.
  evaluate := by
    intro query hquery x hx
    subst hquery
    unfold EvidenceStore.evaluate_sums at hx
    split at hx
    · cases hx
    · next record hfind =>
      have hrecord := hevidence record (Table.mem_of_find hfind)
      rcases List.mem_cons.mp hx with rfl | hx
      · exact room.difference hnow hrecord.1
      · split at hx
        · cases hx
        · split at hx
          · cases hx
          · rcases List.mem_cons.mp hx with rfl | hx
            · exact room.difference hrecord.1 hnow
            · split at hx
              · cases hx
              · split at hx
                · cases hx
                · rw [List.mem_singleton.mp hx]
                  exact room.record_end hrecord
  observe := by
    intro record x hx
    unfold EvidenceStore.observe_sums at hx
    split at hx
    · cases hx
    · split at hx
      · cases hx
      · split at hx
        · obtain ⟨r, hr, rfl⟩ := List.mem_map.mp hx
          exact room.record_end (hevidence r hr)
        · cases hx
  compact := by
    intro x hx
    obtain ⟨r, hr, rfl⟩ := List.mem_map.mp hx
    exact room.record_end (hevidence r (List.mem_of_mem_filter hr))
  acquire := by
    intro context hcontext x hx
    subst hcontext
    unfold AuthorityAcquireContext.sums at hx
    split at hx
    · cases hx
    · rw [List.mem_singleton.mp hx]
      exact room.lease_end hnow
  prerequisites := by
    intro job x hx
    unfold Controller.prerequisites_sums at hx
    split at hx
    · cases hx
    · split at hx
      · cases hx
      · next held hfind =>
        rw [List.mem_singleton.mp hx]
        exact room.lease_left (hledger held (Table.mem_of_find hfind)) hnow

end Span.Roomy

/-! ## Runs -/

namespace System

/-- In a run that is handed nothing outside a roomy span, everything fits at every instant of the
    span, also in the states that a call with several records goes through. -/
theorem time_arithmetic_fits (T : Span) (room : T.Roomy) (events : List Event)
    (hhanded : Along step (Handed T) initial events) (more : List EvidenceRecord)
    (hmore : ∀ r ∈ more, T.Has r.observed_at) (now : Nanos) (hnow : T.Has now) :
    TimeFits ((initial.run events).ctl.store.state.evidence.observe_all more)
      (initial.run events).ctl now := by
  have hdated := dated_run hhanded
  exact room.fits (hdated.ctl.evidence.observe_all hmore) hdated.ctl.ledger hnow

end System

namespace Drill

/-- The last instant of the 64-bit clock. -/
def doomsday : Nanos := 9223372036854775807

/-- The health of the switch is reported for that instant, and `tick` is called for it. -/
def late : List Event :=
  [boot 0, call (.set_topology topology), call (.set_policy policy), health 1 doomsday,
    call (.tick 0 doomsday), call (.begin_pass 0)]

/-- What the pass asks about the health of the switch. -/
def health_query (current : ControllerIncarnation) (now : Nanos) : EvidenceQuery :=
  { key := { kind := .TargetHealth, subject := EvidenceSubject.of switch, source := ⟨1⟩ }
    current, now }

end Drill

namespace System

/-- Everything that is computed on the way to the start of a job, and after it, fits. -/
theorem started_job_fits :
    (⟨0, Drill.ms 200⟩ : Span).Roomy ∧ TimeFits (initial.run Drill.started).ctl.store.state.evidence
      (initial.run Drill.started).ctl (Drill.ms 200) := by
  have room : (⟨0, Drill.ms 200⟩ : Span).Roomy := ⟨by decide, by decide, by decide⟩
  exact ⟨room, time_arithmetic_fits ⟨0, Drill.ms 200⟩ room Drill.started (by decide +kernel) []
    (fun _ h => by cases h) (Drill.ms 200) (by decide)⟩

/-- The record is accepted, its end does not fit, and the wrapped end is long past: the pass takes
    a record of this very instant for expired. Asked at the first instant of the clock, the lead of
    the record does not fit either. -/
theorem late_record_overflows :
    (initial.run Drill.late).pass.map Pass.now = some Drill.doomsday ∧
      ∃ r, (initial.run Drill.late).ctl.store.state.evidence.find
          (Drill.health_query {} 0).key = some r ∧
        r.observed_at = Drill.doomsday ∧
        r.observed_at + r.ttl ∈ (initial.run Drill.late).ctl.store.state.evidence.evaluate_sums
          (Drill.health_query (initial.run Drill.late).ctl.incarnation Drill.doomsday) ∧
        ¬ i64_range (r.observed_at + r.ttl) ∧ wrapped_i64 (r.observed_at + r.ttl) < Drill.doomsday ∧
        r.observed_at - -9223372036854775808 ∈
          (initial.run Drill.late).ctl.store.state.evidence.evaluate_sums
            (Drill.health_query (initial.run Drill.late).ctl.incarnation (-9223372036854775808)) ∧
        ¬ i64_range (r.observed_at - -9223372036854775808) := by
  refine ⟨by decide +kernel, ?_⟩
  obtain ⟨r, hr, hfields⟩ := Option.map_eq_some_iff.mp (show ((initial.run
    Drill.late).ctl.store.state.evidence.find (Drill.health_query {} 0).key).map
      (fun r => (r.observed_at, r.ttl)) = some (Drill.doomsday, 30000000000) by decide +kernel)
  obtain ⟨hat, httl⟩ := Prod.mk.inj hfields
  refine ⟨r, hr, hat, ?_⟩
  rw [hat, httl]
  decide +kernel

end System

end MaintenanceFabric
