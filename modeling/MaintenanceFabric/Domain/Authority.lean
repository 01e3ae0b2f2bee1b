import MaintenanceFabric.Domain.Identity
import MaintenanceFabric.Lib.Table

/-! # Authority and drain leases

    A reservation is the right to hold capacity out of service: it names its
    job, generation and attempt, is owned by one controller incarnation and
    expires.  The ledger is the only place such rights are recorded.
-/

namespace MaintenanceFabric

open Lib

structure AuthorityReservation where
  id : AuthorityId := ⟨0⟩
  job : JobId
  generation : GenerationId
  attempt : AttemptId
  owner : ControllerIncarnation
  targets : List TargetId
  domains : List DomainId := []
  pools : List PoolId := []
  revision : Revision := ⟨0⟩
  granted_at : Nanos := 0
  expires_at : Nanos := 0
  deriving DecidableEq, Repr

namespace AuthorityReservation

def live_at (r : AuthorityReservation) (now : Nanos) : Bool := decide (now < r.expires_at)

def covers (r : AuthorityReservation) (target : TargetId) : Bool := decide (target ∈ r.targets)

end AuthorityReservation

structure AuthorityLedger where
  reservations : Table AuthorityReservation.id := Table.empty
  next_id : AuthorityId := ⟨1⟩

namespace AuthorityLedger

def find (l : AuthorityLedger) (id : AuthorityId) : Option AuthorityReservation :=
  l.reservations.find id

def find_for_job (l : AuthorityLedger) (job : JobId) (generation : GenerationId) :
    Option AuthorityReservation :=
  l.reservations.rows.find? (fun r => r.job = job ∧ r.generation = generation)

def live (l : AuthorityLedger) (now : Nanos) : List AuthorityReservation :=
  l.reservations.rows.filter (fun r => r.live_at now)

/-- Union of the targets of every live reservation, ascending. -/
def reserved_targets (l : AuthorityLedger) (now : Nanos) : List TargetId :=
  sort ((l.live now).foldl (fun out r => push_all_unique out r.targets) [])

theorem mem_reserved_targets {l : AuthorityLedger} {now : Nanos} {t : TargetId} :
    t ∈ l.reserved_targets now ↔
      ∃ r ∈ l.reservations.rows, r.live_at now = true ∧ t ∈ r.targets := by
  unfold reserved_targets live
  rw [mem_sort, mem_collected (P := fun r t => t ∈ AuthorityReservation.targets r)]
  · simp [and_assoc]
  · intro out r t
    exact mem_push_all_unique

def not_held (id : AuthorityId) : Error :=
  make_error .NotFound (text "authority reservation " ++ id.to_string ++ text " is not held")

def check_reservation (l : AuthorityLedger) (r : AuthorityReservation) : Status := do
  refuse_if (!r.job.valid || !r.generation.valid)
    (invalid_argument (text "authority reservation is missing a job or generation"))
  refuse_if (!r.attempt.valid)
    (invalid_argument (text "authority reservation is missing an attempt identity"))
  refuse_if (!r.owner.valid)
    (invalid_argument (text "authority reservation is missing an owning incarnation"))
  refuse_if r.targets.isEmpty
    (invalid_argument (text "authority reservation covers no targets"))
  refuse_if (r.expires_at ≤ r.granted_at)
    (invalid_argument (text "authority reservation lease is not positive"))
  refuse_if (r.expires_at - r.granted_at > limits.kMaxAuthorityLeaseNanos)
    (invalid_argument (text "authority reservation lease exceeds the maximum"))
  refuse_if (l.find_for_job r.job r.generation).isSome (make_error .AlreadyExists
    (text "job " ++ r.job.to_string ++ text " generation " ++ r.generation.to_string ++
      text " already holds maintenance authority"))
  refuse_if (l.reservations.size ≥ limits.kMaxLiveReservations)
    (make_error .LimitExceeded (text "authority ledger is at capacity"))

/-- Grant a reservation under a fresh identity. -/
def reserve (l : AuthorityLedger) (r : AuthorityReservation) :
    Result (AuthorityReservation × AuthorityLedger) := do
  l.check_reservation r
  let granted := { r with id := l.next_id, revision := ⟨1⟩ }
  .ok (granted, { reservations := l.reservations.put granted, next_id := l.next_id.next })

/-- Install a reservation as recorded and move the allocator past it. -/
def adopt (l : AuthorityLedger) (r : AuthorityReservation) : Result AuthorityLedger := do
  refuse_if (!r.id.valid || !r.job.valid)
    (invalid_argument (text "persisted authority reservation is not well formed"))
  .ok { reservations := l.reservations.put r
        next_id := if r.id ≥ l.next_id then r.id.next else l.next_id }

def release (l : AuthorityLedger) (id : AuthorityId) (current : ControllerIncarnation) :
    Result AuthorityLedger :=
  match l.find id with
  | none => .error (not_held id)
  | some r =>
      if r.owner ≠ current then
        .error (make_error .StaleIncarnation (text "authority reservation " ++ id.to_string ++
          text " is owned by incarnation " ++ r.owner.to_string ++ text ", not " ++
          current.to_string))
      else .ok { l with reservations := l.reservations.erase id }

/-- Extend a lease; only the owner may, and only for the attempt it was granted to. -/
def renew (l : AuthorityLedger) (id : AuthorityId) (attempt : AttemptId)
    (current : ControllerIncarnation) (extend now : Nanos) : Result AuthorityLedger :=
  match l.find id with
  | none => .error (not_held id)
  | some r =>
      if r.owner ≠ current then
        .error (make_error .StaleIncarnation (text "authority reservation " ++ id.to_string ++
          text " is owned by incarnation " ++ r.owner.to_string))
      else if r.attempt ≠ attempt then
        .error (make_error .StaleAttempt (text "authority reservation " ++ id.to_string ++
          text " belongs to attempt " ++ r.attempt.to_string ++ text ", not " ++
          attempt.to_string))
      else if extend ≤ 0 then
        .error (invalid_argument (text "authority renewal must extend by a positive duration"))
      else
        let base := if r.expires_at > now then r.expires_at else now
        if extend > limits.kMaxAuthorityLeaseNanos - (base - now) then
          .error (invalid_argument (text "authority renewal would exceed the maximum lease"))
        else
          let renewed := { r with expires_at := base + extend, revision := r.revision.next }
          .ok { l with reservations := l.reservations.put renewed }

def expire (l : AuthorityLedger) (now : Nanos) : AuthorityLedger :=
  { l with reservations := l.reservations.filter (fun r => r.live_at now) }

/-- Revoke every reservation of an incarnation that `current` fences; the revoked ones come
    back ascending by id. -/
def fence_older_incarnations (l : AuthorityLedger) (current : ControllerIncarnation) :
    List AuthorityReservation × AuthorityLedger :=
  (l.reservations.rows.filter (fun r => is_fenced_by r.owner current),
   { l with reservations := l.reservations.filter (fun r => !is_fenced_by r.owner current) })

/-- A granted reservation is the requested one under the next identity. -/
theorem reserve_ok {l l' : AuthorityLedger} {r g : AuthorityReservation}
    (h : l.reserve r = .ok (g, l')) :
    g = { r with id := l.next_id, revision := ⟨1⟩ } ∧
      l' = ⟨l.reservations.put g, l.next_id.next⟩ ∧ r.attempt.valid = true ∧ r.targets ≠ [] := by
  unfold reserve at h
  obtain ⟨_, hcheck, h⟩ := Result.bind_eq_ok.mp h
  obtain ⟨hg, hl⟩ := Prod.mk.inj (Except.ok.inj h)
  simp only [check_reservation, Result.bind_eq_ok, refuse_if_eq_ok] at hcheck
  obtain ⟨_, _, _, hattempt, _, _, _, htargets, _⟩ := hcheck
  refine ⟨hg.symm, ?_, by simpa using hattempt, by simpa using htargets⟩
  rw [← hl, ← hg]

/-- A job generation that already holds authority gets no second reservation. -/
theorem reserve_unheld {l l' : AuthorityLedger} {r g : AuthorityReservation}
    (h : l.reserve r = .ok (g, l')) :
    ∀ r' ∈ l.reservations.rows, ¬ (r'.job = r.job ∧ r'.generation = r.generation) := by
  unfold reserve at h
  obtain ⟨_, hcheck, _⟩ := Result.bind_eq_ok.mp h
  simp only [check_reservation, Result.bind_eq_ok, refuse_if_eq_ok] at hcheck
  obtain ⟨_, _, _, _, _, _, _, _, _, _, _, _, _, hnone, _⟩ := hcheck
  intro r' hr'
  have hnone : l.find_for_job r.job r.generation = none := by simpa using hnone
  have hmiss := List.find?_eq_none.mp hnone r' hr'
  simpa using hmiss

theorem adopt_ok {l l' : AuthorityLedger} {r : AuthorityReservation} (h : l.adopt r = .ok l') :
    l' = ⟨l.reservations.put r, if r.id ≥ l.next_id then r.id.next else l.next_id⟩ := by
  unfold adopt at h
  obtain ⟨_, _, h⟩ := Result.bind_eq_ok.mp h
  exact (Except.ok.inj h).symm

theorem adopt_valid {l l' : AuthorityLedger} {r : AuthorityReservation} (h : l.adopt r = .ok l') :
    r.id.valid = true := by
  unfold adopt at h
  obtain ⟨_, hcheck, _⟩ := Result.bind_eq_ok.mp h
  rw [refuse_if_eq_ok, Bool.or_eq_false_iff, Bool.not_eq_false'] at hcheck
  exact hcheck.1

/-- A renewal replaces the named reservation by one that differs in its end and revision only. -/
theorem renew_ok {l l' : AuthorityLedger} {id : AuthorityId} {attempt : AttemptId}
    {current : ControllerIncarnation} {extend now : Nanos}
    (h : l.renew id attempt current extend now = .ok l') :
    ∃ r e v, l.find id = some r ∧ r.expires_at ≤ e ∧
      l' = { l with
        reservations := l.reservations.put { r with expires_at := e, revision := v } } := by
  unfold renew at h
  split at h
  · cases h
  · next r hr =>
    split at h
    · cases h
    · split at h
      · cases h
      · split at h
        · cases h
        · next hext =>
          simp only at h
          generalize hbase : (if r.expires_at > now then r.expires_at else now) = base at h
          have hle : r.expires_at ≤ base := by
            rw [← hbase]
            split <;> grind
          split at h
          · cases h
          · cases h
            exact ⟨r, base + extend, _, hr, by grind, rfl⟩

theorem release_ok {l l' : AuthorityLedger} {id : AuthorityId} {current : ControllerIncarnation}
    (h : l.release id current = .ok l') :
    ∃ r, l.find id = some r ∧ l' = { l with reservations := l.reservations.erase id } := by
  unfold release at h
  split at h
  · cases h
  · next r hr =>
    split at h
    · cases h
    · exact ⟨r, hr, (Except.ok.inj h).symm⟩

end AuthorityLedger

/-! ## The drain boundary -/

inductive DrainState where
  | Unknown | Draining | Drained | Failed | Released | NotFound
  deriving DecidableEq, Repr

def DrainState.to_string : DrainState → Text
  | .Unknown => text "unknown"
  | .Draining => text "draining"
  | .Drained => text "drained"
  | .Failed => text "failed"
  | .Released => text "released"
  | .NotFound => text "not-found"

structure DrainRequest where
  job : JobId := ⟨0⟩
  generation : GenerationId := ⟨0⟩
  attempt : AttemptId := {}
  targets : List TargetId := []
  lease_duration : Nanos := limits.kDefaultDrainLeaseNanos
  reason : Text := []
  requester : ControllerIncarnation := {}
  deriving DecidableEq, Repr

structure DrainLease where
  id : DrainLeaseId := ⟨0⟩
  targets : List TargetId := []
  granted_at : Nanos := 0
  expires_at : Nanos := 0
  state : DrainState := .Unknown
  attempt : AttemptId := {}
  owner : ControllerIncarnation := {}
  epoch : Nat := 0
  deriving DecidableEq, Repr

/-- What the drain port answers: a status and, when it granted one, a lease. -/
structure DrainResponse where
  status : Status
  lease : DrainLease := {}

end MaintenanceFabric
