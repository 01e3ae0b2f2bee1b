import MaintenanceFabric.Drain.Local
import MaintenanceFabric.Transport.Frame
import MaintenanceFabric.Transport.Protocol

/-! # The remote drain port

    The reference service that `mf-drain-sim` runs, the frames and envelopes
    that lead to it, and the port that talks to it.  The socket layer is left
    out: a connection is there, and what one end sends the other receives.
-/

namespace MaintenanceFabric

open Lib

/-- The value an error code has on the wire. -/
def ErrorCode.code : ErrorCode → Nat
  | .Ok => 0 | .InvalidArgument => 1 | .NotFound => 2 | .AlreadyExists => 3 | .LimitExceeded => 4
  | .Overflow => 5 | .StaleGeneration => 6 | .StaleIncarnation => 7 | .StaleRevision => 8
  | .StaleEvidence => 9 | .StaleAttempt => 10 | .StaleAuthority => 11 | .PolicyDenied => 12
  | .StateConflict => 13 | .WindowClosed => 14 | .DependencyUnmet => 15 | .EvidenceMissing => 16
  | .DrainFailed => 17 | .DrainLeaseLost => 18 | .RestorationFailed => 19 | .Unauthorized => 20
  | .Busy => 21 | .Cancelled => 22 | .ShuttingDown => 23 | .Timeout => 24 | .IoError => 25
  | .CorruptState => 26 | .VersionMismatch => 27 | .Unsupported => 28 | .Internal => 29

namespace Transport

/-- The operations of the drain service, and the one every service answers. -/
inductive OpCode where
  | Ping | DrainRequest | DrainRelease | DrainQuery | DrainRefresh
  deriving DecidableEq, Repr

def OpCode.code : OpCode → Nat
  | .Ping => 1 | .DrainRequest => 100 | .DrainRelease => 101 | .DrainQuery => 102
  | .DrainRefresh => 103

def OpCode.ofCode (code : Nat) : Option OpCode :=
  [.Ping, .DrainRequest, .DrainRelease, .DrainQuery, .DrainRefresh].find? (fun op => op.code = code)

@[simp] theorem OpCode.ofCode_code (op : OpCode) : ofCode op.code = some op := by cases op <;> rfl

theorem OpCode.code_lt (op : OpCode) : op.code < 65536 := by cases op <;> decide

def kStatusOk : Nat := 0

end Transport

open Transport

/-! ## The service -/

/-- The options of `mf-drain-sim` that its service reads. -/
structure DrainSimOptions where
  granted_state : DrainState := .Drained
  fail_next : Nat := 0
  drop_on_query : Bool := false
  fence_refresh : Bool := true
  deriving DecidableEq, Repr

structure DrainService where
  options : DrainSimOptions := {}
  leases : Table DrainLease.id := .empty
  next_id : DrainLeaseId := ⟨1⟩
  epoch : Nat := 0
  fail_next : Nat := 0
  drop_on_query : Bool := false
  granted : Nat := 0
  released : Nat := 0

namespace DrainService

def start (options : DrainSimOptions) : DrainService :=
  { options, fail_next := options.fail_next, drop_on_query := options.drop_on_query }

variable (s : DrainService)

/-- The body of the reply, or the error the service answers with. -/
def request_drain (body : Text) : Result Text × DrainService :=
  match decode_drain_request_body body with
  | .error e => (.error e, s)
  | .ok request =>
      match validate_drain_request request with
      | .error e => (.error e, s)
      | .ok _ =>
          if s.fail_next > 0 then
            (.error (make_error .DrainFailed (text "drain refused by injected failure")),
              { s with fail_next := s.fail_next - 1 })
          else
            match s.leases.rows.find? (fun lease => lease.attempt = request.attempt) with
            | some lease => (.ok (encode_drain_lease_body lease), s)
            | none =>
                let lease : DrainLease :=
                  { id := s.next_id, targets := request.targets, granted_at := 0
                    expires_at := request.lease_duration, state := s.options.granted_state
                    attempt := request.attempt, owner := request.requester, epoch := s.epoch + 1 }
                (.ok (encode_drain_lease_body lease),
                  { s with
                    next_id := s.next_id.next, epoch := s.epoch + 1, leases := s.leases.put lease
                    granted := s.granted + 1 })

def release (body : Text) : Result Text × DrainService :=
  match decode_drain_lease_ref body with
  | .error e => (.error e, s)
  | .ok (id, _, _) =>
      match s.leases.find id with
      | none => (.error (make_error .NotFound
          (text "drain lease " ++ id.to_string ++ text " is not held")), s)
      | some _ => (.ok (encode_text_body (text "released " ++ id.to_string)),
          { s with leases := s.leases.erase id, released := s.released + 1 })

def lost (id : DrainLeaseId) : Error :=
  make_error .DrainLeaseLost (text "drain lease " ++ id.to_string ++ text " is lost")

def drop_leases : DrainService :=
  if s.drop_on_query then { s with drop_on_query := false, leases := .empty } else s

def query (body : Text) : Result Text × DrainService :=
  match decode_drain_lease_ref body with
  | .error e => (.error e, s)
  | .ok (id, _, _) =>
      let s := s.drop_leases
      match s.leases.find id with
      | none => (.error (lost id), s)
      | some held => (.ok (encode_drain_lease_body held), s)

def refresh (body : Text) : Result Text × DrainService :=
  match decode_drain_lease_ref body with
  | .error e => (.error e, s)
  | .ok (id, requester, extend) =>
      match s.leases.find id with
      | none => (.error (lost id), s)
      | some held =>
          if s.options.fence_refresh && held.owner ≠ requester then
            (.error (make_error .StaleIncarnation (text "drain lease " ++ id.to_string ++
              text " is owned by a previous incarnation")), s)
          else if extend ≤ 0 then
            (.error (make_error .InvalidArgument
              (text "refresh requires a positive extension")), s)
          else
            let held := { held with
              expires_at := wrapped_i64 (held.expires_at + extend)
              owner := requester, epoch := s.epoch + 1 }
            (.ok (encode_drain_lease_body held),
              { s with epoch := s.epoch + 1, leases := s.leases.put held })

def handle (request : RpcEnvelope) : Result Text × DrainService :=
  match OpCode.ofCode request.op with
  | some .Ping => (.ok (encode_text_body (text "mf-drain-sim ready")), s)
  | some .DrainRequest => s.request_drain request.body
  | some .DrainRelease => s.release request.body
  | some .DrainQuery => s.query request.body
  | some .DrainRefresh => s.refresh request.body
  | none => (.error (make_error .Unsupported
      (text "mf-drain-sim does not serve this operation")), s)

/-- The envelope an outcome is sent back in: the code of an error travels as the operation. -/
def reply : Result Text → RpcEnvelope
  | .ok body => { op := kStatusOk, body }
  | .error e => { op := e.code.code, message := e.detail }

/-- The handler of the server: a request frame in, a response frame out. -/
def respond (request : Transport.Frame) : Transport.Frame × DrainService :=
  match decode_envelope request.payload with
  | .error e =>
      ({ type := .Response, request_id := request.request_id
         payload := encode_envelope
           { op := ErrorCode.CorruptState.code, message := format_error e } },
        s)
  | .ok envelope =>
      ({ type := .Response, request_id := request.request_id
         payload := encode_envelope (reply (s.handle envelope).1) }, (s.handle envelope).2)

end DrainService

/-! ## The port -/

/-- The port, with the service that listens at the other end of its connection. -/
structure RemoteDrainPort where
  service : DrainService := {}
  /-- `next_id_` of the client. -/
  next_request_id : UInt64 := 1
  calls : Nat := 0
  failures : Nat := 0

namespace RemoteDrainPort

variable (r : RemoteDrainPort)

/-- `TcpClient::call`, with what the server does in between. -/
def exchange (request : Transport.Frame) : Result Transport.Frame × DrainService :=
  match validate_frame request with
  | .error e => (.error e, r.service)
  | .ok _ =>
      match decode_frame (encode_frame request) with
      | .error _ => (.error (make_error .IoError (text "peer closed the connection")), r.service)
      | .ok received =>
          let answered := r.service.respond received
          let raw := encode_frame answered.1
          match decode_frame_header raw with
          | .error e => (.error e, answered.2)
          | .ok header =>
              if header.request_id ≠ request.request_id then
                (.error (corrupt (text "response request id " ++
                  decimal header.request_id.toNat ++ text " does not match request id " ++
                  decimal request.request_id.toNat)), answered.2)
              else (decode_frame raw, answered.2)

/-- Every reply that is not a success is reported as a failed drain. -/
def call (op : OpCode) (body : Text) : Result Text × RemoteDrainPort :=
  let request : Transport.Frame :=
    { type := .Request, request_id := r.next_request_id, flags := UInt32.ofNat op.code
      payload := encode_envelope { op := op.code, body } }
  let answered := r.exchange request
  let called : RemoteDrainPort :=
    { r with
      service := answered.2, next_request_id := r.next_request_id + 1, calls := r.calls + 1 }
  let failed : RemoteDrainPort := { called with failures := r.failures + 1 }
  match answered.1 with
  | .error e => (.error e, { failed with next_request_id := 1 })
  | .ok response =>
      if response.type = .Error then
        (.error (make_error .DrainFailed (text "drain service error: " ++ response.payload)),
          failed)
      else
        match decode_envelope response.payload with
        | .error e => (.error e, failed)
        | .ok envelope =>
            if envelope.op ≠ kStatusOk then
              (.error (make_error .DrainFailed
                (text "drain service rejected the request: " ++ envelope.message)), failed)
            else (.ok envelope.body, called)

/-- What an answer that should carry a lease comes to. -/
def lease_response (failed : DrainLease) : Result Text → DrainResponse
  | .error e => { status := .error e, lease := failed }
  | .ok body =>
      match decode_drain_lease_body body with
      | .error e => { status := .error e }
      | .ok lease => { status := ok_status, lease }

def request_drain (request : DrainRequest) : DrainResponse × RemoteDrainPort :=
  match validate_drain_request request with
  | .error e => ({ status := .error e }, r)
  | .ok _ =>
      let answered := r.call .DrainRequest (encode_drain_request_body request)
      (lease_response { state := .Failed, targets := request.targets, attempt := request.attempt
                        owner := request.requester } answered.1, answered.2)

def refresh_drain (lease : DrainLeaseId) (extend : Nanos) (requester : ControllerIncarnation) :
    DrainResponse × RemoteDrainPort :=
  let answered := r.call .DrainRefresh (encode_drain_lease_ref lease requester extend)
  (lease_response { id := lease } answered.1, answered.2)

def query_drain (lease : DrainLeaseId) (requester : ControllerIncarnation) :
    DrainResponse × RemoteDrainPort :=
  let answered := r.call .DrainQuery (encode_drain_lease_ref lease requester 0)
  (lease_response { id := lease, state := .NotFound } answered.1, answered.2)

def release_drain (lease : DrainLeaseId) (requester : ControllerIncarnation) :
    Status × RemoteDrainPort :=
  let answered := r.call .DrainRelease (encode_drain_lease_ref lease requester 0)
  match answered.1 with
  | .error e => (.error e, answered.2)
  | .ok _ => (ok_status, answered.2)

/-- The status a call returns, and the port after it. -/
def perform : DrainCall → Status × RemoteDrainPort
  | .request_drain request => ((r.request_drain request).1.status, (r.request_drain request).2)
  | .refresh_drain lease extend requester =>
      ((r.refresh_drain lease extend requester).1.status,
        (r.refresh_drain lease extend requester).2)
  | .query_drain lease requester =>
      ((r.query_drain lease requester).1.status, (r.query_drain lease requester).2)
  | .release_drain lease requester => r.release_drain lease requester

end RemoteDrainPort

end MaintenanceFabric
