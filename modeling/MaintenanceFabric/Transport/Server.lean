import MaintenanceFabric.Transport.Frame

/-! # A connection

    The loop with which a server serves one connection.  The bytes the peer
    sends are a list that may stop anywhere; a send may fail after any number
    of bytes.  What stands behind the server is a handler over a state of its
    own.
-/

namespace MaintenanceFabric

namespace Transport

variable {σ : Type}

/-! ## Sockets -/

/-- One end of a connection. -/
structure Connection where
  /-- The bytes the peer has sent, before it closes or falls silent. -/
  input : Text := []
  /-- The bytes that have been got across to it. -/
  output : Text := []
  /-- How the next sends end: whole, or broken off after some bytes. All later ones are whole. -/
  sends : List (Option Nat) := []

/-- `send_all`. -/
def Connection.send_all (c : Connection) (bytes : Text) : Bool × Connection :=
  match c.sends with
  | [] => (true, { c with output := c.output ++ bytes })
  | none :: sends => (true, { c with output := c.output ++ bytes, sends })
  -- `send` has returned an error or zero after some bytes.
  | some n :: sends => (false, { c with output := c.output ++ bytes.take n, sends })

/-! ## The server -/

/-- Gets the request and the response prepared for it. -/
abbrev Handler (σ : Type) : Type := Frame → Frame → σ → (Status × Frame) × σ

structure ServerStats where
  handled : Nat := 0
  failures : Nat := 0
  frames_in : Nat := 0
  frames_out : Nat := 0
  bytes_in : Nat := 0
  bytes_out : Nat := 0
  deriving DecidableEq, Repr

structure TcpServer (σ : Type) where
  state : σ
  stats : ServerStats := {}

/-- The frame that carries an error as text. -/
def error_frame (request_id : UInt64) (e : Error) : Frame :=
  { type := .Error, request_id, payload := format_error e }

/-- The response to a request: what the handler made of the prepared one, unless it failed. -/
def answer (handler : Handler σ) (request : Frame) (state : σ) : Frame × σ :=
  let prepared : Frame := { request_id := request.request_id, type := .Response }
  let handled := handler request prepared state
  (match handled.1.1 with
    | .error e => { handled.1.2 with type := .Error, payload := format_error e }
    | .ok _ => handled.1.2, handled.2)

namespace TcpServer

variable (handler : Handler σ) (max_payload : Nat)

/-- A request that has been read: answer it, and say whether the connection goes on. -/
def reply (request : Frame) (c : Connection) (s : TcpServer σ) : Bool × Connection × TcpServer σ :=
  let answered := answer handler request s.state
  let out := encode_frame answered.1
  let sent := c.send_all out
  -- The handler has run by the time the answer is sent, whatever becomes of the answer.
  let s : TcpServer σ :=
    { state := answered.2, stats := { s.stats with frames_in := s.stats.frames_in + 1 } }
  if sent.1 then
    (request.type ≠ .Goodbye, sent.2, { s with stats := { s.stats with
      bytes_out := s.stats.bytes_out + out.length
      frames_out := s.stats.frames_out + 1
      handled := s.stats.handled + 1 } })
  else (false, sent.2, s)

/-- What reading the next request off a connection comes to. -/
inductive Reading where
  /-- The peer stopped before the header, or before the payload, was there. -/
  | gone (bytes_in : Nat)
  /-- The header is none; the peer is told. -/
  | garbled (e : Error)
  /-- The payload is too long, or the frame does not decode; the peer is not told. -/
  | refused (bytes_in : Nat)
  | request (frame : Frame) (rest : Text)

def read_request (input : Text) : Reading :=
  if input.length < kFrameHeaderBytes then .gone 0
  else
    let header := input.take kFrameHeaderBytes
    let rest := input.drop kFrameHeaderBytes
    match decode_frame_header header with
    | .error e => .garbled e
    | .ok head =>
        if head.payload_length > max_payload then .refused kFrameHeaderBytes
        else if rest.length < head.payload_length then .gone kFrameHeaderBytes
        else
          match decode_frame (header ++ rest.take head.payload_length) with
          | .error _ => .refused (kFrameHeaderBytes + head.payload_length)
          | .ok request => .request request (rest.drop head.payload_length)

/-- One round of `serve`: a request is read and answered, or the connection is given up. -/
def round (c : Connection) (s : TcpServer σ) : Bool × Connection × TcpServer σ :=
  match read_request max_payload c.input with
  | .gone bytes_in =>
      (false, c, { s with stats := { s.stats with bytes_in := s.stats.bytes_in + bytes_in } })
  | .garbled e =>
      let out := encode_frame (error_frame 0 e)
      (false, (c.send_all out).2, { s with stats := { s.stats with
        bytes_in := s.stats.bytes_in + kFrameHeaderBytes
        failures := s.stats.failures + 1
        bytes_out := s.stats.bytes_out + out.length } })
  | .refused bytes_in =>
      (false, c, { s with stats := { s.stats with
        bytes_in := s.stats.bytes_in + bytes_in, failures := s.stats.failures + 1 } })
  | .request request rest =>
      reply handler request { c with input := rest } { s with stats := { s.stats with
        bytes_in := s.stats.bytes_in + (c.input.length - rest.length) } }

theorem reply_input (request : Frame) (c : Connection) (s : TcpServer σ) :
    (reply handler request c s).2.1.input = c.input := by
  have hsent : ∀ bytes, (c.send_all bytes).2.input = c.input := by
    intro bytes
    unfold Connection.send_all
    split <;> rfl
  unfold reply
  simp only
  split <;> exact hsent _

/-- A request takes a header at least. -/
theorem read_request_shortens {input : Text} {request : Frame} {rest : Text}
    (h : read_request max_payload input = .request request rest) : rest.length < input.length := by
  unfold read_request at h
  simp only at h
  split at h
  · cases h
  · next hlong =>
    split at h
    · cases h
    · split at h
      · cases h
      · split at h
        · cases h
        · split at h
          · cases h
          · obtain ⟨_, rfl⟩ := Reading.request.inj h
            simp only [List.length_drop, kFrameHeaderBytes] at hlong ⊢
            omega

theorem round_shortens {c : Connection} {s : TcpServer σ}
    (h : (round handler max_payload c s).1 = true) :
    (round handler max_payload c s).2.1.input.length < c.input.length := by
  unfold round at h ⊢
  cases hread : read_request max_payload c.input with
  | request request rest =>
    simp only [reply_input]
    exact read_request_shortens max_payload hread
  | _ =>
    rw [hread] at h
    cases h

/-- The rounds of a connection, one after the other. -/
def serve (c : Connection) (s : TcpServer σ) : Connection × TcpServer σ :=
  if h : (round handler max_payload c s).1 = true then
    have := round_shortens handler max_payload h
    serve (round handler max_payload c s).2.1 (round handler max_payload c s).2.2
  else (round handler max_payload c s).2
termination_by c.input.length

end TcpServer

end Transport

end MaintenanceFabric
