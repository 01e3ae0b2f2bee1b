import MaintenanceFabric.Drain.Local
import MaintenanceFabric.Engine.Scheduling
import MaintenanceFabric.Runtime.System

/-! # One process

    A tick as the program text has it: up to eight passes, each under the
    lock, with the drain port asked in between.  `Host` is a process that
    runs whole ticks and calls one after the other against a drain service,
    which may also change on its own.
-/

namespace MaintenanceFabric

open Lib

/-- A drain service, as far as a tick needs it. -/
structure DrainPort (π : Type) where
  request_drain : π → DrainRequest → DrainResponse × π
  release_drain : π → DrainLeaseId → ControllerIncarnation → Status × π

/-- The service in the same process. -/
def LocalDrainPort.port : DrainPort LocalDrainPort :=
  { request_drain := LocalDrainPort.request_drain, release_drain := LocalDrainPort.release_drain }

namespace Controller

variable {π : Type} (port : DrainPort π)

/-! ## A pass -/

def drain_all_locked (c : Controller) (now : Nanos) (actions : List DrainAction) :
    Controller × List DrainAction :=
  let context : PassContext :=
    { now
      readiness :=
        ReadinessView.build c.topology c.store.state.evidence c.policy c.incarnation now }
  let order := Scheduler.drive_order (Scheduler.plan_tick c.store.state.jobs c.policy now)
  let driven := order.foldl (fun d id => d.1.drive_locked id context d.2) (c, actions)
  (driven.1.arbitrate_locked context).sweep_orphans driven.2

/-- The first half of a round, under the lock. -/
def locked_pass (c : Controller) (now : Nanos) : Controller × List DrainAction :=
  { c with
    store := c.store.expire_authority now
    deferred_releases := [] }.drain_all_locked now c.deferred_releases

/-! ## The drain port -/

/-- The request goes out in the controller's own name. -/
def drain_request (c : Controller) (action : DrainAction) : DrainRequest :=
  { job := action.job
    generation := action.generation
    attempt := action.attempt
    targets := action.targets
    lease_duration := action.lease_duration
    reason := action.reason
    requester := c.incarnation }

/-- Ask the port what the action says. -/
def ask (c : Controller) (action : DrainAction) (drain : π) : DrainResponse × π :=
  match action.kind with
  | .Request => port.request_drain drain (c.drain_request action)
  | .Release =>
      let released := port.release_drain drain action.lease c.incarnation
      ({ status := released.1, lease := { id := action.lease, state := .Released } }, released.2)

/-- One action: marked under the lock, asked without it, applied under it again. -/
def settle (now : Nanos) (w : Controller × π) (action : DrainAction) : Controller × π :=
  let c := if action.job.valid then
      { w.1 with drain_inflight := push_unique w.1.drain_inflight action.job }
    else w.1
  let asked := c.ask port action w.2
  (c.apply_outcome action asked.1 now, asked.2)

/-! ## The tick -/

/-- The rounds of a tick; one without actions is the last. -/
def rounds (now : Nanos) : Nat → Controller × π → Controller × π
  | 0, w => w
  | passes + 1, (c, drain) =>
      let pass := c.locked_pass now
      if pass.2.isEmpty then (pass.1, drain)
      else rounds now passes (pass.2.foldl (settle port now) (pass.1, drain))

def tick (c : Controller) (drain : π) (now : Nanos) : Controller × π :=
  rounds port now kMaxPassesPerTick (c, drain)

end Controller

/-! ## The process -/

structure Host (π : Type) where
  ctl : Controller := {}
  up : Bool := false
  drain : π

/-- Does the label stand for something done to the controller from outside, other than a tick? -/
def Label.outside : Label → Bool
  | .tick _ _ | .begin_pass _ | .pass_step | .mark _ | .outcome _ _ | .finish _ | .open _ _ _ =>
      false
  | _ => true

inductive Turn (π : Type) where
  /-- A call of the interface. -/
  | call (label : Label) (outside : label.outside = true) (verdicts : List (Option JournalFault))
  /-- A whole tick. -/
  | tick (now : Nanos) (verdicts : List (Option JournalFault))
  /-- The process is restarted. -/
  | «open» (options : Controller.ControllerOptions) (clock : Nanos) (steady : Nat)
      (verdicts : List (Option JournalFault))
  /-- The drain service moves by itself. -/
  | service (drain : π)

namespace Host

variable {π : Type} (port : DrainPort π)

/-- Without a process, only a restart does anything. -/
def turn (h : Host π) : Turn π → Host π
  | .call label _ verdicts =>
      let c := System.under h.ctl verdicts
      { h with ctl := if h.up then (c.call label).getD c else c }
  | .tick now verdicts =>
      let c := System.under h.ctl verdicts
      if h.up then
        let ticked := c.tick port h.drain now
        { h with ctl := ticked.1, drain := ticked.2 }
      else { h with ctl := c }
  | .open options clock steady verdicts =>
      let opened := Controller.open (System.under h.ctl verdicts).store options clock steady
      { h with ctl := opened.2, up := Status.isOk opened.1 }
  | .service drain => { h with drain }

def run (h : Host π) (turns : List (Turn π)) : Host π := turns.foldl (turn port) h

/-- The process as a state of the system: no tick is under way between turns. -/
def system (h : Host π) : System := { ctl := h.ctl, up := h.up }

end Host

end MaintenanceFabric
