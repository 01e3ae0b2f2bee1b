import MaintenanceFabric.Drain.Remote
import MaintenanceFabric.Transport.Client

/-! # Remote calls

    What both programs put around their operations on the side of the server,
    and what the remote interface makes of a response on the side of the
    client.  The operations themselves are a service: a function from an
    envelope to the body of the reply, or an error.
-/

namespace MaintenanceFabric

open Lib Transport

/-- `static_cast<ErrorCode>`. A number that no enumerator has is taken for the last one. -/
def ErrorCode.ofCode (code : Nat) : ErrorCode :=
  [.Ok, .InvalidArgument, .NotFound, .AlreadyExists, .LimitExceeded, .Overflow, .StaleGeneration,
    .StaleIncarnation, .StaleRevision, .StaleEvidence, .StaleAttempt,
    .StaleAuthority, .PolicyDenied,
    .StateConflict, .WindowClosed, .DependencyUnmet, .EvidenceMissing,
    .DrainFailed, .DrainLeaseLost,
    .RestorationFailed, .Unauthorized, .Busy, .Cancelled, .ShuttingDown, .Timeout, .IoError,
    .CorruptState, .VersionMismatch, .Unsupported, .Internal].getD code .Internal

@[simp] theorem ErrorCode.ofCode_code (code : ErrorCode) : ofCode code.code = code := by
  cases code <;> rfl

/-! ## The service -/

/-- What is done about an operation: the body of the reply, or an error. -/
abbrev Service (σ : Type) : Type := RpcEnvelope → σ → Result Text × σ

/-- The handler around a service. An envelope that does not decode never reaches it. -/
def Service.handler {σ : Type} (service : Service σ) : Handler σ := fun request prepared state =>
  match decode_envelope request.payload with
  | .error e =>
      let reply : RpcEnvelope := { op := ErrorCode.CorruptState.code, message := format_error e }
      ((ok_status, { prepared with type := .Response, payload := encode_envelope reply }), state)
  | .ok envelope =>
      let done := service envelope state
      ((ok_status, { prepared with
        type := .Response, payload := encode_envelope (DrainService.reply done.1) }), done.2)

/-- The drain service answers through this handler. -/
theorem DrainService.respond_eq (s : DrainService) (request : Transport.Frame) :
    answer (Service.handler fun envelope s => s.handle envelope) request s = s.respond request := by
  unfold answer Service.handler respond
  cases decode_envelope request.payload with
  | error e => rfl
  | ok envelope => rfl

/-! ## The client -/

/-- The remote interface. It keeps its client, and so its connection, whatever a call comes to. -/
structure RemoteApi (σ : Type) where
  client : TcpClient := {}
  wire : Wire σ

namespace RemoteApi

variable {σ : Type}

/-- An error code travels as the operation of the reply. -/
def unwrap (envelope : RpcEnvelope) (what : Text) : Result Text :=
  if envelope.op ≠ kStatusOk then
    .error (make_error (ErrorCode.ofCode envelope.op) (what ++ text ": " ++ envelope.message))
  else .ok envelope.body

/-- The second half of `call`: what the response of the client comes to. -/
def read_response (what : Text) : Result Transport.Frame → Result Text
  | .error e => .error (make_error e.code (what ++ text ": " ++ e.detail))
  | .ok response =>
      if response.type = .Error then
        .error (make_error .IoError (what ++ text ": " ++ response.payload))
      else
        match decode_envelope response.payload with
        | .error e => .error (make_error e.code (what ++ text ": " ++ e.detail))
        | .ok envelope => unwrap envelope what

/-- An operation with its body, what it is called in errors, and how far its bytes get. -/
structure Command (σ : Type) where
  op : Nat
  body : Text
  what : Text
  crossing : Crossing σ := {}

def Command.envelope (c : Command σ) : RpcEnvelope := { op := c.op, body := c.body }

def call (service : Service σ) (max_payload : Nat) (r : RemoteApi σ) (c : Command σ) :
    Result Text × RemoteApi σ :=
  let called := TcpClient.call_type service.handler max_payload c.crossing .Request c.op
    (encode_envelope c.envelope) r.client r.wire
  (read_response c.what called.1, { client := called.2.1, wire := called.2.2 })

end RemoteApi

end MaintenanceFabric
