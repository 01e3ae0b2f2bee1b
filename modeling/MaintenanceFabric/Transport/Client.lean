import MaintenanceFabric.Transport.Server

/-! # A client

    The call with which a client uses its connection.  The connection outlasts
    the calls: it is two streams of bytes, and whatever a call has left on them
    is what the next one finds.  The server reads when it gets to it, so a
    request may still be handled after its call has failed.
-/

namespace MaintenanceFabric

namespace Transport

variable {σ : Type}

/-! ## The line -/

/-- A connection, with the server at its other end. -/
structure Wire (σ : Type) where
  /-- What the client has sent and the server has not read. -/
  up : Text := []
  /-- What the server has sent and the client has not read. -/
  down : Text := []
  /-- The server has not given the connection up. -/
  serving : Bool := true
  server : TcpServer σ
  /-- The requests that have reached the handler, each with the state it was handled in. -/
  handled : List (Frame × σ) := []

/-- What may go on at the other end. -/
inductive Doing (σ : Type) where
  /-- The server gets to its loop; its send may break off after some bytes. -/
  | serve (sent : Option Nat)
  /-- The server gives the connection up: it has waited for too long, or is stopped. -/
  | leave
  /-- Another connection, or the program itself, moves the state. -/
  | meanwhile (change : σ → σ)

namespace Wire

variable (handler : Handler σ) (max_payload : Nat)

/-- One round of `serve`, if there is something to read as a whole; else the server waits for it. -/
def serve (w : Wire σ) (sent : Option Nat) : Wire σ :=
  let served := TcpServer.round handler max_payload
    { input := w.up, output := w.down, sends := [sent] } w.server
  let next : Wire σ := { w with
    up := served.2.1.input, down := served.2.1.output, serving := served.1, server := served.2.2 }
  match TcpServer.read_request max_payload w.up with
  | .gone _ => w
  | .request request _ => { next with handled := w.handled ++ [(request, w.server.state)] }
  | .garbled _ => next
  | .refused _ => next

def next (w : Wire σ) : Doing σ → Wire σ
  | .serve sent => if w.serving then w.serve handler max_payload sent else w
  | .leave => { w with serving := false }
  | .meanwhile change => { w with server := { w.server with state := change w.server.state } }

end Wire

/-! ## The client -/

/-- How far the bytes of a call get. -/
structure Crossing (σ : Type) where
  /-- Where the client's send breaks off, if it does. -/
  sent : Option Nat := none
  /-- What goes on at the other end before the client has read. -/
  meantime : List (Doing σ) := []
  /-- How much the client has read when it gives up, if it does not wait for all of the answer. -/
  heard : Option Nat := none
  /-- What the socket reports then. -/
  error : Error := make_error .IoError (text "peer closed the connection")

def up_to : Option Nat → Text → Text
  | none, bytes => bytes
  | some n, bytes => bytes.take n

structure TcpClient where
  /-- `next_id_`. -/
  next_id : UInt64 := 1

namespace TcpClient

/-- What the bytes that have come in amount to. -/
inductive Hearing where
  /-- `recv_exact` waits for more. -/
  | waits
  | read (result : Result Frame) (rest : Text)

/-- The second half of `call`. An error leaves what stands behind the bytes that were read. -/
def receive (request : Frame) (input : Text) : Hearing :=
  if input.length < kFrameHeaderBytes then .waits
  else
    let header := input.take kFrameHeaderBytes
    let rest := input.drop kFrameHeaderBytes
    match decode_frame_header header with
    | .error e => .read (.error e) rest
    | .ok head =>
        -- Only the header has been read: the payload of this answer stays on the line.
        if head.request_id ≠ request.request_id then
          .read (.error (make_error .CorruptState (text "response request id " ++
            decimal head.request_id.toNat ++ text " does not match request id " ++
            decimal request.request_id.toNat))) rest
        else if rest.length < head.payload_length then .waits
        else .read (decode_frame (header ++ rest.take head.payload_length))
          (rest.drop head.payload_length)

variable (handler : Handler σ) (max_payload : Nat)

/-- A call, with what goes on at the other end meanwhile. The socket stays open whatever happens. -/
def call (crossing : Crossing σ) (request : Frame) (w : Wire σ) : Result Frame × Wire σ :=
  match validate_frame request with
  | .error e => (.error e, w)
  | .ok _ =>
      let w : Wire σ := { w with up := w.up ++ up_to crossing.sent (encode_frame request) }
      let w := crossing.meantime.foldl (Wire.next handler max_payload) w
      -- A send that breaks off ends the call, with what has been sent on its way to the server.
      if crossing.sent.isSome then (.error crossing.error, w)
      else
        let there := up_to crossing.heard w.down
        let beyond := w.down.drop there.length
        match receive request there with
        -- The bytes of an answer that stays incomplete are lost with the buffer they are in.
        | .waits => (.error crossing.error, { w with down := beyond })
        | .read result rest => (result, { w with down := rest ++ beyond })

/-- The request of `call_type`, under the next id of the client. -/
def request_frame (client : TcpClient) (type : FrameType) (op : Nat) (body : Text) : Frame :=
  { type, request_id := client.next_id, flags := UInt32.ofNat op, payload := body }

def call_type (crossing : Crossing σ) (type : FrameType) (op : Nat) (body : Text)
    (client : TcpClient) (w : Wire σ) : Result Frame × TcpClient × Wire σ :=
  let called := call handler max_payload crossing (client.request_frame type op body) w
  (called.1, { next_id := client.next_id + 1 }, called.2)

end TcpClient

end Transport

end MaintenanceFabric
