import MaintenanceFabric.Runtime.Calls

/-! # The system

    A controller process together with the threads that run ticks in it.  A
    tick takes the lock for one pass at a time and talks to the drain port
    between passes without it, so calls and other ticks interleave there.  A
    pass is broken into its own steps, one per driven job, during which
    nothing else may move.

    A restart may strike at any step: it drops the threads and every field
    that lives in memory only, and opens a new incarnation on what the store
    has committed.
-/

namespace MaintenanceFabric

open Lib

/-! ## State -/

/-- One call of `tick(now)` in progress. -/
structure Thread where
  id : Nat
  now : Nanos
  /-- Passes it may still begin. -/
  passes : Nat := kMaxPassesPerTick
  /-- Actions of its last pass that wait for the drain port. -/
  actions : List DrainAction := []
  /-- Has the first action been marked as in flight? -/
  marked : Bool := false

/-- The pass that holds the lock. -/
structure Pass where
  thread : Nat
  now : Nanos
  /-- The evidence store when the pass began; the readiness view is built from it. -/
  evidence : EvidenceStore
  /-- Jobs it has still to drive. -/
  remaining : List JobId
  actions : List DrainAction

structure System where
  ctl : Controller := {}
  up : Bool := false
  threads : Table Thread.id := Table.empty
  pass : Option Pass := none

/-- Topology, policy and incarnation do not change while a pass holds the lock, so this is
    the view the pass built when it began. -/
def Pass.context (p : Pass) (c : Controller) : PassContext :=
  { now := p.now
    readiness := ReadinessView.build c.topology p.evidence c.policy c.incarnation p.now }

/-! ## Events -/

inductive Label where
  | set_topology (topology : Topology)
  | set_policy (policy : Policy)
  | propose (request : MaintenanceRequest) (actor : Text) (clock : Nanos)
  | approve (job : JobId) (actor : Text) (entry_at commit_at : Nanos)
  | rearm (job : JobId) (actor : Text) (clock : Nanos)
  | cancel (job : JobId) (actor reason : Text) (clock : Nanos)
  | observe (evidence : EvidenceRecord)
  | report_completion (job : JobId) (attempt : AttemptId) (succeeded : Bool) (detail : Text)
      (clock : Nanos)
  | report_restoration (job : JobId) (attempt : AttemptId) (target : TargetId) (restored : Bool)
      (detail : Text) (clock : Nanos)
  | clear_quarantine (id : QuarantineId) (actor justification : Text) (clock : Nanos)
  /-- A thread enters `tick(now)`. -/
  | tick (thread : Nat) (now : Nanos)
  /-- It takes the lock and begins a pass. -/
  | begin_pass (thread : Nat)
  /-- The pass drives its next job, or arbitrates, sweeps and unlocks when none is left. -/
  | pass_step
  /-- It marks the job of its first action as in flight. -/
  | mark (thread : Nat)
  /-- The drain port answers its first action. -/
  | outcome (thread : Nat) (answer : DrainResponse)
  /-- `tick` returns. -/
  | finish (thread : Nat)
  /-- The process is restarted. -/
  | «open» (options : Controller.ControllerOptions) (clock : Nanos) (steady : Nat)

/-- A label, and what the journal answers while it runs. -/
structure Event where
  label : Label
  verdicts : List (Option JournalFault) := []

/-- Does the event restart the process? -/
def Event.restarts (e : Event) : Bool :=
  match e.label with
  | .open _ _ _ => true
  | _ => false

/-- The record an event hands to the controller. -/
def Event.observed (e : Event) : Option EvidenceRecord :=
  match e.label with
  | .observe evidence => some evidence
  | _ => none

/-- The job and the attempt an event reports as not restored. -/
def Label.refuting : Label → Option (JobId × AttemptId)
  | .observe evidence =>
      if evidence.refutes then some (evidence.job, evidence.attempt) else none
  | .report_restoration job attempt _ false _ _ => some (job, attempt)
  | _ => none

/-! ## Steps -/

namespace Controller

/-- The calls of the interface, as one family. -/
def call (c : Controller) : Label → Option Controller
  | .set_topology topology => some (c.set_topology topology).2
  | .set_policy policy => some (c.set_policy policy).2
  | .propose request actor clock => some (c.propose request actor clock).2
  | .approve job actor entry_at commit_at => some (c.approve job actor entry_at commit_at).2
  | .rearm job actor clock => some (c.rearm job actor clock).2
  | .cancel job actor reason clock => some (c.cancel job actor reason clock).2
  | .observe evidence => some (c.observe evidence).2
  | .report_completion job attempt succeeded detail clock =>
      some (c.report_completion job attempt succeeded detail clock).2
  | .report_restoration job attempt target restored detail clock =>
      some (c.report_restoration job attempt target restored detail clock).2
  | .clear_quarantine id actor justification clock =>
      some (c.clear_quarantine id actor justification clock).2
  | _ => none

end Controller

namespace System

variable (s : System)

/-- Run a controller function under the journal answers of an event. -/
def under (c : Controller) (verdicts : List (Option JournalFault)) : Controller :=
  { c with store := { c.store with verdicts } }

def begin_tick (thread : Nat) (now : Nanos) : System :=
  if (s.threads.find thread).isSome then s
  else { s with threads := s.threads.put { id := thread, now } }

/-- Expiry runs first; deferred releases become the first actions of the pass. -/
def begin_pass (thread : Nat) : System :=
  match s.threads.find thread with
  | none => s
  | some t =>
      if t.passes = 0 ∨ t.actions ≠ [] then s
      else
        let c := { s.ctl with store := s.ctl.store.expire_authority t.now, deferred_releases := [] }
        { s with
          ctl := c
          threads := s.threads.put { t with passes := t.passes - 1 }
          pass := some { thread, now := t.now, evidence := c.store.state.evidence
                         remaining := plan_tick c.store.state.jobs
                         actions := s.ctl.deferred_releases } }

/-- A pass without actions is the last one of its tick. -/
def end_pass (t : Thread) (actions : List DrainAction) : Thread :=
  { t with actions, passes := if actions.isEmpty then 0 else t.passes, marked := false }

def pass_step (p : Pass) : System :=
  match p.remaining with
  | id :: rest =>
      let driven := s.ctl.drive_locked id (p.context s.ctl) p.actions
      { s with ctl := driven.1, pass := some { p with remaining := rest, actions := driven.2 } }
  | [] =>
      let swept := (s.ctl.arbitrate_locked (p.context s.ctl)).sweep_orphans p.actions
      { s with
        ctl := swept.1
        pass := none
        threads :=
          match s.threads.find p.thread with
          | none => s.threads
          | some t => s.threads.put (end_pass t swept.2) }

def mark (thread : Nat) : System :=
  match s.threads.find thread with
  | none => s
  | some t =>
      match t.actions with
      | [] => s
      | action :: _ =>
          { s with
            threads := s.threads.put { t with marked := true }
            ctl := if action.job.valid then
                { s.ctl with drain_inflight := push_unique s.ctl.drain_inflight action.job }
              else s.ctl }

def outcome (thread : Nat) (answer : DrainResponse) : System :=
  match s.threads.find thread with
  | none => s
  | some t =>
      match t.actions, t.marked with
      | action :: rest, true =>
          { s with
            ctl := s.ctl.apply_outcome action (Controller.perform_action action answer) t.now
            threads := s.threads.put { t with actions := rest, marked := false } }
      | _, _ => s

def finish (thread : Nat) : System :=
  match s.threads.find thread with
  | none => s
  | some t => if t.passes = 0 ∧ t.actions = [] then
    { s with threads := s.threads.erase thread } else s

/-- A failed open leaves no process behind, only the store. -/
def restart (options : Controller.ControllerOptions) (clock : Nanos) (steady : Nat) : System :=
  let opened := Controller.open s.ctl.store options clock steady
  { ctl := opened.2, up := Status.isOk opened.1 }

/-- What an unlocked, running process does on a label. -/
def unlocked : Label → System
  | .tick thread now => s.begin_tick thread now
  | .begin_pass thread => s.begin_pass thread
  | .mark thread => s.mark thread
  | .outcome thread answer => s.outcome thread answer
  | .finish thread => s.finish thread
  | label =>
      match s.ctl.call label with
      | none => s
      | some ctl => { s with ctl }

/-- One step. Labels that are not enabled change nothing. -/
def step (e : Event) : System :=
  let s := { s with ctl := under s.ctl e.verdicts }
  match e.label with
  | .open options clock steady => s.restart options clock steady
  | label =>
      if s.up then
        match s.pass with
        | some p => match label with
            | .pass_step => s.pass_step p
            | _ => s
        | none => s.unlocked label
      else s

/-- The state after a run of events. -/
def run (s : System) (events : List Event) : System := events.foldl step s

/-- An empty journal, before any process has opened it. -/
def initial : System := {}

/-- The job as the store has it. -/
def job (id : JobId) : Option MaintenanceJob := s.ctl.store.state.jobs.find id

end System

end MaintenanceFabric
