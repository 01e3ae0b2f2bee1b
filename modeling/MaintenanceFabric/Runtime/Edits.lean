import MaintenanceFabric.Runtime.System
import MaintenanceFabric.Store.Books
import Mathlib.Logic.Relation

/-! # Edits and changes

    The vocabulary in which every step of the system is described once.

    * `Core` is the part of a job the guarantees are about, and `Edit` lists
      the ways a job can be replaced by its next version.
    * `World` is the part of a controller the guarantees are about, and
      `Change` lists the elementary things that can happen to it.
    * A `License` says which of them a particular step may use; the facts a
      step checked before it acted travel in its license.

    Every invariant is then a case analysis over `Change`, never over the
    functions of the controller.
-/

namespace MaintenanceFabric

open Lib

/-! ## The core of a job -/

structure Core where
  id : JobId
  generation : GenerationId
  targets : List TargetId
  depends_on : List JobId
  requires_drain : Bool
  removal_set : List TargetId
  state : JobState
  service_removed : Bool
  active_attempt : AttemptId
  next_attempt : AttemptOrdinal
  trail : List (JobState × JobState)
  dropped : Nat
  maintenance_failed : Bool
  authority : AuthorityId
  lease : DrainLeaseId

/-- The transition a history entry records. -/
def HistoryEntry.transition (e : HistoryEntry) : JobState × JobState := (e.from_state, e.to_state)

def MaintenanceJob.core (j : MaintenanceJob) : Core where
  id := j.id
  generation := j.generation
  targets := j.targets
  depends_on := j.depends_on
  requires_drain := j.requires_drain
  removal_set := j.removal_set
  state := j.state
  service_removed := j.service_removed
  active_attempt := j.active_attempt
  next_attempt := j.next_attempt
  trail := j.history.map HistoryEntry.transition
  dropped := j.history_dropped
  maintenance_failed := j.maintenance_failed
  authority := j.authority
  lease := j.lease

namespace Core

/-- Enter a state: the trail grows, service is removed by `InMaintenance`, and a terminal
    state leaves no active attempt. -/
def move (c : Core) (to_state : JobState) : Core :=
  let trail := c.trail ++ [(c.state, to_state)]
  let excess := trail.length - limits.kMaxJobHistoryEntries
  { c with
    state := to_state
    trail := trail.drop excess
    dropped := c.dropped + excess
    service_removed := c.service_removed || to_state == .InMaintenance
    active_attempt := if to_state.is_terminal then {} else c.active_attempt }

/-- Make the next attempt the active one. -/
def mint (c : Core) : Core :=
  { c with
    active_attempt := { job := c.id, generation := c.generation, ordinal := c.next_attempt }
    next_attempt := c.next_attempt.next }

def with_attempt (c : Core) : Core := if c.active_attempt.valid then c else c.mint

/-- Move to the next generation; its tokens are not those of the previous one. -/
def rearm (c : Core) (authority : AuthorityId) (lease : DrainLeaseId) : Core :=
  { c.move (Controller.rearm_state c.state) with
    generation := c.generation.next
    active_attempt := {}
    maintenance_failed := false
    authority
    lease }

/-- What a restart does to a job that had got past validation. -/
def reconcile (c : Core) (authority : AuthorityId) (lease : DrainLeaseId) : Core :=
  let fenced := { c with active_attempt := {}, authority, lease }
  let tokened := if c.service_removed then fenced.mint else fenced
  if c.state = .Blocked then tokened else tokened.move .Blocked

/-- A job as it is proposed. -/
def Fresh (c : Core) : Prop :=
  c.state = .Proposed ∧ c.trail = [] ∧ c.dropped = 0 ∧ c.service_removed = false ∧
    c.active_attempt = {} ∧ c.next_attempt = ⟨1⟩ ∧ c.generation = ⟨1⟩ ∧ c.removal_set = [] ∧
    c.maintenance_failed = false ∧ c.authority = ⟨0⟩ ∧ c.lease = ⟨0⟩

end Core

/-! ## Edits -/

inductive EditKind where
  /-- Authority, lease or fields outside the core. -/
  | touched
  | minted
  | approved
  | rearmed
  | expanded
  /-- A transition to a state other than `Verifying`. -/
  | moved (to_state : JobState)
  /-- Maintenance over, with or without a failure. -/
  | confirmed (failed : Bool)
  /-- Back from `Blocked` with service removed. -/
  | resumed
  | reconciled
  deriving DecidableEq

inductive Edit : EditKind → Core → Core → Prop where
  | touched {c : Core} (authority : AuthorityId) (lease : DrainLeaseId)
      (alive : c.state.is_terminal = false) : Edit .touched c { c with authority, lease }
  | minted {c : Core} (state : c.state = .Prerequisites) (idle : c.active_attempt.valid = false) :
      Edit .minted c c.mint
  | approved {c : Core} (state : c.state = .Proposed) : Edit .approved c (c.move .Validated)
  | rearmed {c : Core} (authority : AuthorityId) (lease : DrainLeaseId)
      (alive : c.state.is_terminal = false)
      (kept : c.service_removed = false)
      (legal : (check_transition c.state (Controller.rearm_state c.state) false).allowed = true) :
      Edit .rearmed c (c.rearm authority lease)
  | expanded {c : Core} (removal_set : List TargetId) (authority : AuthorityId)
      (lease : DrainLeaseId) (state : c.state = .Validated) :
      Edit .expanded c
        { ({ c with removal_set }).with_attempt.move .Prerequisites with authority, lease }
  | moved {c : Core} (to_state : JobState) (authority : AuthorityId) (lease : DrainLeaseId)
      (legal : (check_transition c.state to_state c.service_removed).allowed = true)
      (onward : to_state ≠ .Validated ∧ to_state ≠ .Verifying ∧
        (to_state = .Restoring → c.state = .Verifying)) :
      Edit (.moved to_state) c { c.move to_state with authority, lease }
  | confirmed {c : Core} (failed : Bool) (authority : AuthorityId) (lease : DrainLeaseId)
      (state : c.state = .InMaintenance) :
      Edit (.confirmed failed) c
        { ({ c with maintenance_failed := c.maintenance_failed || failed }).move .Verifying with
          authority, lease }
  | resumed {c : Core} (authority : AuthorityId) (lease : DrainLeaseId) (state : c.state = .Blocked)
      (removed : c.service_removed = true) :
      Edit .resumed c { c.with_attempt.move .Verifying with authority, lease }
  | reconciled {c : Core} (authority : AuthorityId) (lease : DrainLeaseId)
      (alive : c.state.is_terminal = false)
      (past : c.state ≠ .Proposed ∧ c.state ≠ .Validated) :
      Edit .reconciled c (c.reconcile authority lease)

namespace Edit

variable {k : EditKind} {c c' : Core}

/-- No edit touches a terminal job. -/
theorem alive (h : Edit k c c') : c.state.is_terminal = false := by
  cases h with
  | touched _ _ alive => exact alive
  | minted state _ => simp [state, JobState.is_terminal]
  | approved state => simp [state, JobState.is_terminal]
  | rearmed _ _ alive _ _ => exact alive
  | expanded _ _ _ state => simp [state, JobState.is_terminal]
  | moved to_state _ _ legal _ => exact check_transition_alive legal
  | confirmed _ _ _ state => simp [state, JobState.is_terminal]
  | resumed _ _ state _ => simp [state, JobState.is_terminal]
  | reconciled _ _ alive _ => exact alive

theorem with_attempt_id (c : Core) : c.with_attempt.id = c.id := by
  unfold Core.with_attempt
  split <;> rfl

theorem id_eq (h : Edit k c c') : c'.id = c.id := by
  cases h with
  | expanded _ _ _ _ => exact with_attempt_id _
  | resumed _ _ _ _ => exact with_attempt_id _
  | reconciled _ _ _ _ =>
    unfold Core.reconcile
    simp only
    split <;> split <;> rfl
  | _ => rfl

end Edit

/-! ## Worlds and changes -/

structure World extends Books where
  incarnation : ControllerIncarnation
  /-- `evidence_revision_`. -/
  counter : Nat
  /-- Answers given to `write_evidence_locked`. -/
  written : List (EvidenceKey × Status)

def Controller.world (c : Controller) : World :=
  { c.store.books with
    incarnation := c.incarnation, counter := c.evidence_revision, written := c.written }

/-- The record of the job decodes, so a commit of it can only fail in the journal. -/
def Recordable (j : MaintenanceJob) : Prop := check_job_record j = .ok ()

/-- The ledger without one row. -/
def AuthorityLedger.without (l : AuthorityLedger) (id : AuthorityId) : AuthorityLedger :=
  { l with reservations := l.reservations.erase id }

structure License where
  edits : JobId → EditKind → Prop
  /-- Records the controller writes itself. -/
  writes : EvidenceRecord → Prop
  /-- Records it is handed from outside. -/
  observes : EvidenceRecord → Prop
  expires : Nanos → Prop
  restarts : Prop
  /-- May a job commit fail after its authority has been released? -/
  faulty : Prop
  /-- May authority be granted? -/
  grants : Prop := False

/-- The answer to one write, as the log keeps it. -/
inductive Answer (e : EvidenceStore) (r : EvidenceRecord) : Status → EvidenceStore → Prop where
  | accepted {staging : EvidenceStore}
    (h : e.observe r = .ok staging) : Answer e r ok_status staging
  | refused {error : Error} (h : error.code = .StaleRevision →
      ∃ error', e.observe r = .error error' ∧ error'.code = .StaleRevision) :
      Answer e r (.error error) e

/-- A reservation for a job that has got past validation, covering exactly its scope. -/
structure ReservationFor (w : World) (r : AuthorityReservation) (j : MaintenanceJob) : Prop where
  stored : w.jobs.find j.id = some j
  alive : j.state.is_terminal = false
  past : j.state ≠ .Proposed ∧ j.state ≠ .Validated
  job : r.job = j.id
  generation : r.generation = j.generation
  attempt : r.attempt.valid = true
  owner : r.owner = w.incarnation
  scope : ∀ t, t ∈ r.targets ↔ t ∈ j.removal_set
  nonempty : r.targets ≠ []
  fresh : w.ledger.next_id ≤ r.id

inductive Change (L : License) : World → World → Prop where
  | edited {w : World} {j j' : MaintenanceJob} {k : EditKind} (stored : w.jobs.find j.id = some j)
      (edit : Edit k j.core j'.core) (licensed : L.edits j.id k)
      (authority : j'.authority = j.authority ∨ j'.authority = ⟨0⟩ ∨
        ∃ r ∈ w.ledger.reservations.rows, r.id = j'.authority ∧ r.job = j.id)
      (recordable : Recordable j') : Change L w { w with jobs := w.jobs.put j' }
  /-- An edit that gives the job's authority back in the same breath. -/
  | retired {w : World} {j j' : MaintenanceJob} {k : EditKind} (stored : w.jobs.find j.id = some j)
      (edit : Edit k j.core j'.core) (licensed : L.edits j.id k)
      (authority : j'.authority = j.authority ∨ j'.authority = ⟨0⟩)
      (recordable : Recordable j')
      (spent : j'.state.is_terminal = true ∨ j'.service_removed = false) :
      Change L w { w with jobs := w.jobs.put j', ledger := w.ledger.without j.authority }
  /-- Authority given back, but the edit did not get through. -/
  | dropped {w : World} {j : MaintenanceJob} (stored : w.jobs.find j.id = some j)
      (excuse : j.service_removed = false ∨ L.faulty) :
      Change L w { w with ledger := w.ledger.without j.authority }
  | created {w : World} {j : MaintenanceJob} (unused : w.jobs.find j.id = none)
      (fresh : j.core.Fresh) (recordable : Recordable j) :
      Change L w { w with jobs := w.jobs.put j }
  | reserved {w : World} {r : AuthorityReservation} {j : MaintenanceJob}
      (reservation : ReservationFor w r j)
      (stage : (j.state = .Prerequisites ∧ L.grants) ∨ L.restarts) :
      Change L w { w with ledger := ⟨w.ledger.reservations.put r, r.id.next⟩ }
  | renewed {w : World} {r : AuthorityReservation} (e : Nanos) (v : Revision)
      (held : r ∈ w.ledger.reservations.rows) (longer : r.expires_at ≤ e) :
      Change L w { w with ledger := { w.ledger with
        reservations := w.ledger.reservations.put { r with expires_at := e, revision := v } } }
  | expired {w : World} (now : Nanos) (licensed : L.expires now) :
      Change L w { w with ledger := w.ledger.expire now }
  | authored {w : World} {r : EvidenceRecord} {answer : Status} {evidence : EvidenceStore}
      (revision : r.revision = ⟨w.counter + 1⟩) (licensed : L.writes r)
      (answered : Answer w.evidence r answer evidence) :
      Change L w { w with evidence, counter := w.counter + 1,
                          written := w.written ++ [(r.key, answer)] }
  | observed {w : World} {r : EvidenceRecord} {evidence : EvidenceStore} (licensed : L.observes r)
      (accepted : w.evidence.observe r = .ok evidence) : Change L w { w with evidence }
  /-- A new process: memory is lost, the boot epoch moves on. -/
  | reopened {w : World} (incarnation : ControllerIncarnation) (capacity : Nat)
      (licensed : L.restarts) (later : incarnation.boot_epoch = w.epoch.next) :
      Change L w { w with
        incarnation, counter := 0, written := [], epoch := incarnation.boot_epoch
        evidence := { w.evidence with capacity } }
  /-- A start that failed before it claimed an epoch. -/
  | halted {w : World} (capacity : Nat) (licensed : L.restarts) :
      Change L w { w with
        incarnation := {}, counter := 0, written := [], evidence := { w.evidence with capacity } }
  | fenced {w : World} (licensed : L.restarts) :
      Change L w { w with ledger := (w.ledger.fence_older_incarnations w.incarnation).2 }

/-- A finite sequence of changes under one license. -/
def Changes (L : License) : World → World → Prop := Relation.ReflTransGen (Change L)

namespace Changes

variable {L : License} {w w' w'' : World}

theorem refl (w : World) : Changes L w w := Relation.ReflTransGen.refl

theorem of_eq (h : w' = w) : Changes L w w' := by
  rw [h]
  exact refl w

theorem single (h : Change L w w') : Changes L w w' := Relation.ReflTransGen.single h

theorem trans (h : Changes L w w') (h' : Changes L w' w'') : Changes L w w'' :=
  Relation.ReflTransGen.trans h h'

/-- Invariants of changes are invariants of sequences. -/
theorem preserves {P : World → Prop} (step : ∀ w w', P w → Change L w w' → P w')
    (h : Changes L w w') (hw : P w) : P w' := by
  induction h with
  | refl => exact hw
  | tail _ hstep ih => exact step _ _ ih hstep

end Changes

end MaintenanceFabric
