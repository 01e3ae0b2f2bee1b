import MaintenanceFabric.Domain.Authority
import MaintenanceFabric.Lib.Table
import MaintenanceFabric.Store.Codec

/-! # The drain boundary

    What a drain service is asked, the check every request passes first, and the
    in-process implementation of the service: the one that tests run against and
    that says what the others are meant to answer.
-/

namespace MaintenanceFabric

open Lib

/-! ## Requests -/

def validate_drain_request (request : DrainRequest) : Status := do
  refuse_if (!request.job.valid || !request.generation.valid || !request.attempt.valid)
    (invalid_argument (text "drain request is missing job, generation or attempt identity"))
  refuse_if (!request.requester.valid)
    (invalid_argument (text "drain request is missing the requesting incarnation"))
  refuse_if request.targets.isEmpty (invalid_argument (text "drain request has no targets"))
  refuse_if (request.targets.length > limits.kMaxDrainTargetsPerRequest)
    (make_error .LimitExceeded (text "drain request exceeds the target limit"))
  refuse_if (request.lease_duration < limits.kMinDrainLeaseNanos ||
      request.lease_duration > limits.kMaxDrainLeaseNanos)
    (invalid_argument (text "drain lease duration is out of range"))
  refuse_if (repeats request.targets)
    (invalid_argument (text "drain request repeats a target"))
  refuse_if (request.targets.any (fun target => !target.valid))
    (invalid_argument (text "drain request contains an invalid target id"))

/-- A call of the port. -/
inductive DrainCall where
  | request_drain (request : DrainRequest)
  | refresh_drain (lease : DrainLeaseId) (extend : Nanos) (requester : ControllerIncarnation)
  | query_drain (lease : DrainLeaseId) (requester : ControllerIncarnation)
  | release_drain (lease : DrainLeaseId) (requester : ControllerIncarnation)

/-- The code of a status; none for success. -/
def status_code : Status → Option ErrorCode
  | .ok _ => none
  | .error e => some e.code

/-! ## In process -/

structure LocalDrainOptions where
  granted_state : DrainState := .Drained
  fail_next_requests : Nat := 0
  fence_refresh_by_owner : Bool := true
  drop_leases_on_next_query : Bool := false
  deriving DecidableEq, Repr

structure LocalDrainPort where
  options : LocalDrainOptions := {}
  leases : Table DrainLease.id := .empty
  next_id : DrainLeaseId := ⟨1⟩
  epoch : Nat := 0
  requests : Nat := 0
  releases : Nat := 0
  refreshes : Nat := 0

namespace LocalDrainPort

variable (p : LocalDrainPort)

/-- A second request for the same attempt returns the lease that already exists. -/
def request_drain (request : DrainRequest) : DrainResponse × LocalDrainPort :=
  match validate_drain_request request with
  | .error e => ({ status := .error e }, p)
  | .ok _ =>
      let p := { p with requests := p.requests + 1 }
      if p.options.fail_next_requests > 0 then
        ({ status := .error (make_error .DrainFailed
             (text "drain service rejected the request (injected failure)"))
           lease := { targets := request.targets, state := .Failed, attempt := request.attempt
                      owner := request.requester } },
          { p with options := { p.options with
              fail_next_requests := p.options.fail_next_requests - 1 } })
      else
        match p.leases.rows.find? (fun lease => lease.attempt = request.attempt) with
        | some lease => ({ status := ok_status, lease }, p)
        | none =>
            let lease : DrainLease :=
              { id := p.next_id, targets := sort request.targets, granted_at := 0
                expires_at := request.lease_duration, state := p.options.granted_state
                attempt := request.attempt, owner := request.requester, epoch := p.epoch + 1 }
            ({ status := ok_status, lease },
              { p with
                next_id := p.next_id.next, epoch := p.epoch + 1, leases := p.leases.put lease })

/-- `drain lease N is not held`, with the code of the call. -/
def not_held (code : ErrorCode) (lease : DrainLeaseId) : Error :=
  make_error code (text "drain lease " ++ lease.to_string ++ text " is not held")

/-- The answer about a lease the service does not know. -/
def lost (lease : DrainLeaseId) : DrainResponse :=
  { status := .error (not_held .DrainLeaseLost lease),
    lease := { id := lease, state := .NotFound } }

/-- The new end is computed in 64 bits, and nothing keeps `extend` from running over. -/
def refresh_drain (lease : DrainLeaseId) (extend : Nanos) (requester : ControllerIncarnation) :
    DrainResponse × LocalDrainPort :=
  match p.leases.find lease with
  | none => (lost lease, p)
  | some held =>
      if p.options.fence_refresh_by_owner && held.owner ≠ requester then
        ({ status := .error (make_error .StaleIncarnation (text "drain lease " ++ lease.to_string ++
             text " is owned by " ++ held.owner.to_string)), lease := held }, p)
      else if extend ≤ 0 then
        ({ status := .error (invalid_argument
             (text "drain refresh must extend by a positive duration")), lease := held }, p)
      else
        let held := { held with
          expires_at := wrapped_i64 (held.expires_at + extend)
          owner := requester, epoch := p.epoch + 1 }
        ({ status := ok_status, lease := held },
          { p with
            refreshes := p.refreshes + 1, epoch := p.epoch + 1, leases := p.leases.put held })

/-- The injected loss of every lease, which happens once. -/
def drop_leases : LocalDrainPort :=
  if p.options.drop_leases_on_next_query then
    { p with options := { p.options with drop_leases_on_next_query := false }, leases := .empty }
  else p

def query_drain (lease : DrainLeaseId) (_requester : ControllerIncarnation) :
    DrainResponse × LocalDrainPort :=
  let p := p.drop_leases
  match p.leases.find lease with
  | none => (lost lease, p)
  | some held => ({ status := ok_status, lease := held }, p)

def release_drain (lease : DrainLeaseId) (_requester : ControllerIncarnation) :
    Status × LocalDrainPort :=
  match p.leases.find lease with
  | none => (.error (not_held .NotFound lease), p)
  | some _ =>
      (ok_status, { p with leases := p.leases.erase lease, releases := p.releases + 1 })

/-- The status a call returns, and the port after it. -/
def perform : DrainCall → Status × LocalDrainPort
  | .request_drain request => ((p.request_drain request).1.status, (p.request_drain request).2)
  | .refresh_drain lease extend requester =>
      ((p.refresh_drain lease extend requester).1.status,
        (p.refresh_drain lease extend requester).2)
  | .query_drain lease requester =>
      ((p.query_drain lease requester).1.status, (p.query_drain lease requester).2)
  | .release_drain lease requester => p.release_drain lease requester

/-! ### Switches for tests -/

def fail_next (count : Nat) : LocalDrainPort :=
  { p with options := { p.options with fail_next_requests := count } }

def set_granted_state (state : DrainState) : LocalDrainPort :=
  { p with options := { p.options with granted_state := state } }

def drop_leases_on_next_query : LocalDrainPort :=
  { p with options := { p.options with drop_leases_on_next_query := true } }

end LocalDrainPort

end MaintenanceFabric
