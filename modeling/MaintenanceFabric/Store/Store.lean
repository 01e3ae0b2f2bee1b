import MaintenanceFabric.Domain.Evidence
import MaintenanceFabric.Store.Entry
import Mathlib.Logic.Function.Basic

/-! # The store

    Persisted state and the operations that change it.  Every operation first
    asks the journal to append its records and only then changes memory; a
    refusal leaves the state as it was.

    What the journal will answer is part of the state: `verdicts` lists the
    coming answers, and a journal that has run out of listed answers accepts
    what passes its own checks.  `log` is what it has accepted since the store
    was opened, one list of entries per transaction.  A reopened store is
    taken to recover exactly what was committed.

    Evidence, reservations and quarantines carry a digest in the source; no
    operation reads it, so it is kept beside the tables, by key.
-/

namespace MaintenanceFabric

open Lib

structure PersistedState where
  topology : Topology := {}
  policy : Policy := {}
  jobs : JobTable := {}
  evidence : EvidenceStore := {}
  ledger : AuthorityLedger := {}
  quarantines : QuarantineTable := {}
  leases : Table DrainLease.id := Table.empty
  last_incarnation : ControllerIncarnation := {}
  boot_epoch : BootEpoch := ⟨0⟩

/-- How a write can fail: the file system refuses it, or the journal is at its bound. -/
inductive JournalFault where
  | io | full
  deriving DecidableEq, Repr

def JournalFault.error : JournalFault → Error
  | .io => make_error .IoError (text "failed to append a journal frame header")
  | .full => make_error .LimitExceeded
      (text "journal would exceed its configured byte bound; compaction is required")

/-- The digest fields of the stored records. -/
structure Digests where
  evidence : EvidenceKey → UInt64 := fun _ => 0
  reservations : AuthorityId → UInt64 := fun _ => 0
  quarantines : QuarantineId → UInt64 := fun _ => 0

/-- A record that arrives without a digest is given one. -/
def sealed (given computed : UInt64) : UInt64 := if given = 0 then computed else given

namespace Digests

def with_evidence (d : Digests) (key : EvidenceKey) (digest : UInt64) : Digests :=
  { d with evidence := Function.update d.evidence key digest }

def with_reservation (d : Digests) (id : AuthorityId) (digest : UInt64) : Digests :=
  { d with reservations := Function.update d.reservations id digest }

def with_quarantine (d : Digests) (id : QuarantineId) (digest : UInt64) : Digests :=
  { d with quarantines := Function.update d.quarantines id digest }

end Digests

structure Store where
  state : PersistedState := {}
  evidence_sequence : Nat := 0
  verdicts : List (Option JournalFault) := []
  log : List (List Entry) := []
  digests : Digests := {}

namespace Store

/-- One past the largest identity in use. -/
def next_job_id (jobs : JobTable) : JobId :=
  jobs.jobs.rows.foldl (fun next job => if job.id ≥ next then job.id.next else next) ⟨1⟩

/-! ## The journal boundary -/

/-- The next answer of the journal. -/
def next_verdict (s : Store) : Option JournalFault × Store :=
  match s.verdicts with
  | [] => (none, s)
  | v :: rest => (v, { s with verdicts := rest })

/-- `append_transaction` of the records of the entries. -/
def append_transaction (s : Store) (entries : List Entry) : Status × Store :=
  match admit_transaction entries with
  | .error e => (.error e, s)
  | .ok _ =>
      match s.next_verdict with
      | (none, s) => (ok_status, { s with log := s.log ++ [entries] })
      | (some fault, s) => (.error fault.error, s)

def flush (s : Store) : Status × Store :=
  match s.next_verdict with
  | (none, s) => (ok_status, s)
  | (some _, s) => (.error (make_error .IoError (text "failed to flush the journal")), s)

/-- Validate, append and sync, the journal half of `append_and_apply`. -/
def append_and_flush (s : Store) (entries : List Entry) : Status × Store :=
  match check_entries entries with
  | .error e => (.error e, s)
  | .ok _ =>
      match s.append_transaction entries with
      | (.error e, s) => (.error e, s)
      | (.ok _, s) => s.flush

/-- The record was written but cannot be applied. -/
def unapplied (e : Error) : Error :=
  make_error .Internal
    (text "journal accepted a record the store could not apply: " ++ e.detail)

/-- A step of the store that changed nothing but the list of coming verdicts. -/
def Quiet (s s' : Store) : Prop :=
  s'.state = s.state ∧ s'.evidence_sequence = s.evidence_sequence

theorem Quiet.rfl' (s : Store) : Quiet s s := ⟨rfl, rfl⟩

theorem quiet_next_verdict (s : Store) : Quiet s s.next_verdict.2 := by
  unfold next_verdict
  split <;> exact ⟨rfl, rfl⟩

theorem quiet_append_transaction (s : Store) (entries : List Entry) :
    Quiet s (s.append_transaction entries).2 := by
  have h := quiet_next_verdict s
  unfold append_transaction
  split
  · exact Quiet.rfl' s
  · split
    · next hv =>
      rw [hv] at h
      exact h
    · next hv =>
      rw [hv] at h
      exact h

theorem quiet_flush (s : Store) : Quiet s s.flush.2 := by
  have h := quiet_next_verdict s
  unfold flush
  split <;> simp_all

theorem quiet_append_and_flush (s : Store) (entries : List Entry) :
    Quiet s (s.append_and_flush entries).2 := by
  have h := quiet_append_transaction s entries
  unfold append_and_flush
  split
  · exact Quiet.rfl' s
  · split
    · simp_all
    · next heq =>
      rw [heq] at h
      have h' := quiet_flush (s.append_transaction entries).2
      rw [heq] at h'
      exact ⟨h'.1.trans h.1, h'.2.trans h.2⟩

/-! ## Incarnations and structure -/

/-- Claim a boot epoch. `nonce = 0` asks for the steady clock's reading. -/
def begin_incarnation (s : Store) (controller : ControllerId) (nonce steady : Nat) :
    Result ControllerIncarnation × Store :=
  if !controller.valid then (.error (invalid_argument (text "controller id is not valid")), s)
  else
    let prior := s.state.boot_epoch
    let epoch := if prior.valid then prior.next else ⟨1⟩
    let system_nonce := if steady = 0 then 1 else steady
    let incarnation : ControllerIncarnation :=
      { controller, boot_epoch := epoch, nonce := if nonce = 0 then system_nonce else nonce }
    match s.append_and_flush [.boot incarnation prior] with
    | (.error e, s) => (.error e, s)
    | (.ok _, s) =>
        (.ok incarnation,
          { s with state := { s.state with last_incarnation := incarnation, boot_epoch := epoch } })

def commit_topology (s : Store) (topology : Topology) : Status × Store :=
  match topology.validate with
  | .error e => (.error e, s)
  | .ok _ =>
      match s.append_and_flush [.topology topology] with
      | (.error e, s) => (.error e, s)
      | (.ok _, s) =>
          match recorded_topology topology with
          | .error e => (.error (unapplied e), s)
          | .ok image => (ok_status, { s with state := { s.state with topology := image } })

def commit_policy (s : Store) (policy : Policy) : Status × Store :=
  match policy.validate with
  | .error e => (.error e, s)
  | .ok _ =>
      match s.append_and_flush [.policy policy] with
      | (.error e, s) => (.error e, s)
      | (.ok _, s) =>
          match recorded_policy policy with
          | .error e => (.error (unapplied e), s)
          | .ok image => (ok_status, { s with state := { s.state with policy := image } })

/-! ## Jobs -/

def with_jobs (s : Store) (jobs : JobTable) : Store := { s with state := { s.state with jobs } }

/-- Allocate an identity, insert and commit. The identity is spent even when the commit fails. -/
def create_job (s : Store) (job : MaintenanceJob) : Result JobId × Store :=
  if s.state.jobs.jobs.size ≥ limits.kMaxJobsTotal then
    (.error (make_error .LimitExceeded (text "job table is at capacity")), s)
  else
    let job := { job with id := s.state.jobs.next_id, revision := ⟨1⟩ }
    let s := s.with_jobs { s.state.jobs with next_id := s.state.jobs.next_id.next }
    match s.state.jobs.insert job with
    | .error e => (.error e, s)
    | .ok _ =>
        match s.append_and_flush [.job job] with
        | (.error e, s) => (.error e, s)
        | (.ok _, s) =>
            match recorded_job job with
            | .error e => (.error (unapplied e), s)
            | .ok image =>
                (.ok job.id, s.with_jobs { s.state.jobs with jobs := s.state.jobs.jobs.put image })

/-- Fenced replacement of one job. What is installed is the image of the record. -/
def commit_job (s : Store) (job : MaintenanceJob) : Status × Store :=
  match s.state.jobs.put job with
  | .error e => (.error e, s)
  | .ok _ =>
      match s.append_and_flush [.job job] with
      | (.error e, s) => (.error e, s)
      | (.ok _, s) =>
          match recorded_job job with
          | .error e => (.error (unapplied e), s)
          | .ok image =>
              (ok_status, s.with_jobs { s.state.jobs with jobs := s.state.jobs.jobs.put image })

/-- The fenced puts of `commit_jobs`, remembering what each one replaced. -/
def put_all : JobTable → List MaintenanceJob → List MaintenanceJob →
    Except (Error × List MaintenanceJob) (JobTable × List MaintenanceJob)
  | table, previous, [] => .ok (table, previous)
  | table, previous, job :: jobs =>
      match table.find job.id with
      | none => .error (make_error .NotFound
          (text "job " ++ job.id.to_string ++ text " does not exist"), previous)
      | some existing =>
          match table.put job with
          | .error e => .error (e, previous ++ [existing])
          | .ok table => put_all table (previous ++ [existing]) jobs

/-- Put back what was replaced, in the order it was replaced. -/
def roll_back (table : JobTable) (previous : List MaintenanceJob) : JobTable :=
  { table with jobs := previous.foldl Table.put table.jobs }

/-- The images of all records, or the first one that does not decode. -/
def recorded_jobs (jobs : List MaintenanceJob) : Result (List MaintenanceJob) :=
  jobs.mapM recorded_job

def commit_jobs (s : Store) (jobs : List MaintenanceJob) : Status × Store :=
  if jobs.isEmpty then (.error (invalid_argument (text "no jobs supplied")), s)
  else
    match put_all s.state.jobs [] jobs with
    | .error (e, previous) => (.error e, s.with_jobs (roll_back s.state.jobs previous))
    | .ok (table, previous) =>
        match s.append_and_flush (jobs.map .job) with
        | (.error e, s) => (.error e, s.with_jobs (roll_back table previous))
        | (.ok _, s) =>
            match recorded_jobs jobs with
            | .error e => (.error (unapplied e), s.with_jobs (roll_back table previous))
            | .ok images =>
                (ok_status, s.with_jobs { table with jobs := images.foldl Table.put table.jobs })

/-- Forget a job. -/
def commit_job_erased (s : Store) (id : JobId) : Status × Store :=
  match s.state.jobs.find id with
  | none =>
      (.error (make_error .NotFound (text "job " ++ id.to_string ++ text " does not exist")), s)
  | some _ =>
      match s.append_and_flush [.job_erased id] with
      | (.error e, s) => (.error e, s)
      | (.ok _, s) =>
          if id.valid then (ok_status, s.with_jobs (s.state.jobs.erase id))
          else (.error (unapplied (corrupt (text "job-erased record is malformed"))), s)

/-! ## Evidence -/

/-- Monotonic evidence identity for the running incarnation. -/
def allocate_evidence_id (s : Store) : EvidenceId × Store :=
  let sequence := s.evidence_sequence + 1
  let epoch := if s.state.last_incarnation.boot_epoch.valid
    then s.state.last_incarnation.boot_epoch.value else 1
  (⟨(epoch <<< 40) ||| (sequence % 2 ^ 40)⟩, { s with evidence_sequence := sequence })

def observe_evidence (s : Store) (evidence : EvidenceRecord) (digest : UInt64 := 0) :
    Status × Store :=
  match s.state.evidence.observe evidence with
  | .error e => (.error e, s)
  | .ok staging =>
      match s.append_transaction [.evidence evidence digest] with
      | (.error e, s) => (.error e, s)
      | (.ok _, s) =>
          (ok_status, { s with
            state := { s.state with evidence := staging }
            digests := s.digests.with_evidence evidence.key
              (sealed digest (evidence_digest evidence)) })

/-! ## Authority -/

def with_ledger (s : Store) (ledger : AuthorityLedger) : Store :=
  { s with state := { s.state with ledger } }

/-- Journal the entries and, if they are accepted, install the staged ledger. -/
def install_ledger (s : Store) (entries : List Entry) (staging : AuthorityLedger)
    (digests : Digests) : Status × Store :=
  match s.append_transaction entries with
  | (.error e, s) => (.error e, s)
  | (.ok _, s) => (ok_status, { s.with_ledger staging with digests })

def reserve_authority (s : Store) (r : AuthorityReservation) : Result AuthorityId × Store :=
  match s.state.ledger.reserve r with
  | .error e => (.error e, s)
  | .ok (granted, staging) =>
      let digest := reservation_digest granted
      match s.install_ledger [.reservation granted digest] staging
          (s.digests.with_reservation granted.id digest) with
      | (.error e, s) => (.error e, s)
      | (.ok _, s) => (.ok granted.id, s)

def insert_authority (s : Store) (r : AuthorityReservation) (digest : UInt64 := 0) :
    Status × Store :=
  match s.state.ledger.adopt r with
  | .error e => (.error e, s)
  | .ok staging =>
      s.install_ledger [.reservation r digest] staging
        (s.digests.with_reservation r.id (sealed digest (reservation_digest r)))

def release_authority (s : Store) (id : AuthorityId) (current : ControllerIncarnation) :
    Status × Store :=
  match s.state.ledger.release id current with
  | .error e => (.error e, s)
  | .ok staging => s.install_ledger [.reservation_erased id] staging s.digests

def renew_authority (s : Store) (id : AuthorityId) (attempt : AttemptId)
    (current : ControllerIncarnation) (extend now : Nanos) : Status × Store :=
  match s.state.ledger.renew id attempt current extend now with
  | .error e => (.error e, s)
  | .ok staging =>
      match staging.find id with
      | none => (.error (internal_error
          (text "authority ledger lost a reservation it just renewed")), s)
      | some stored =>
          let digest := reservation_digest stored
          s.install_ledger [.reservation stored digest] staging
            (s.digests.with_reservation id digest)

/-- Remove what has expired. One transaction carries all of it, so more than
    `kMaxRecordsPerTransaction` expired reservations stay. -/
def expire_authority (s : Store) (now : Nanos) : Store :=
  let expired := s.state.ledger.reservations.rows.filter (fun r => !r.live_at now)
  if expired.isEmpty then s
  else (s.install_ledger (expired.map (fun r => .reservation_erased r.id))
    (s.state.ledger.expire now) s.digests).2

/-- Revoke the reservations of older incarnations, under the same bound. -/
def fence_authority (s : Store) (current : ControllerIncarnation) : Store :=
  let (revoked, staging) := s.state.ledger.fence_older_incarnations current
  if revoked.isEmpty then s
  else (s.install_ledger (revoked.map (fun r => .reservation_erased r.id)) staging s.digests).2

/-! ## Leases and quarantine -/

def commit_lease (s : Store) (lease : DrainLease) : Status × Store :=
  match s.append_transaction [.lease lease] with
  | (.error e, s) => (.error e, s)
  | (.ok _, s) =>
      (ok_status, { s with state := { s.state with leases := s.state.leases.put lease } })

def commit_lease_erased (s : Store) (id : DrainLeaseId) : Status × Store :=
  match s.append_transaction [.lease_erased id] with
  | (.error e, s) => (.error e, s)
  | (.ok _, s) =>
      (ok_status, { s with state := { s.state with leases := s.state.leases.erase id } })

def with_quarantines (s : Store) (quarantines : QuarantineTable) : Store :=
  { s with state := { s.state with quarantines } }

/-- The identity is allocated on the live table before the staging copy is made. -/
def quarantine_target (s : Store) (target : TargetId) (job : JobId) (generation : GenerationId)
    (reason : BlockReason) (detail : Text) (now : Nanos) (created_by : ControllerIncarnation) :
    Result QuarantineId × Store :=
  let record : QuarantineRecord :=
    { id := s.state.quarantines.next_id, target, job, generation, reason, detail
      created_at := now, created_by }
  let digest := quarantine_digest record
  let s := s.with_quarantines
    { s.state.quarantines with next_id := s.state.quarantines.next_id.next }
  match s.state.quarantines.insert record with
  | .error e => (.error e, s)
  | .ok staging =>
      match s.append_transaction [.quarantine record digest] with
      | (.error e, s) => (.error e, s)
      | (.ok _, s) =>
          (.ok record.id, { s.with_quarantines staging with
            digests := s.digests.with_quarantine record.id digest })

/-- A record under a known identity replaces the stored one and is digested anew; what is
    journaled is the record as it was given. -/
def commit_quarantine (s : Store) (record : QuarantineRecord) (digest : UInt64 := 0) :
    Status × Store :=
  let (applied, stored_digest) := if (s.state.quarantines.find record.id).isNone
    then (s.state.quarantines.insert record, sealed digest (quarantine_digest record))
    else (s.state.quarantines.put record, quarantine_digest record)
  match applied with
  | .error e => (.error e, s)
  | .ok staging =>
      match s.append_transaction [.quarantine record digest] with
      | (.error e, s) => (.error e, s)
      | (.ok _, s) =>
          (ok_status, { s.with_quarantines staging with
            digests := s.digests.with_quarantine record.id stored_digest })

end Store

end MaintenanceFabric
