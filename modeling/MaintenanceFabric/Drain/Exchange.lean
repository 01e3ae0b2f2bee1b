import MaintenanceFabric.Drain.Remote

/-! # What a remote call comes to

    A call that is within the bounds of a frame reaches the service unchanged,
    and so does the reply.  What is left of the transport is the mapping of the
    reply: a success keeps its body, and every error becomes one and the same.
-/

namespace MaintenanceFabric

open Lib

/-! ## Values beyond their width -/

/-- Fields are written modulo their width, so a value that has run over it is read back as the
    machine would hold it. -/
theorem u16Bytes_mod (v : Nat) : u16Bytes (v % 65536) = u16Bytes v := by
  have hhigh : v % 65536 / 256 % 256 = v / 256 % 256 := by omega
  simp only [u16Bytes, List.cons.injEq, and_true]
  constructor
  · apply UInt8.toNat_inj.mp
    simp [hhigh]
  · apply UInt8.toNat_inj.mp
    simp

theorem u32Bytes_mod (v : Nat) : u32Bytes (v % u32_range) = u32Bytes v := by
  have hhigh : v % 4294967296 / 65536 = v / 65536 % 65536 := by omega
  have hlow : v % 4294967296 % 65536 = v % 65536 := by omega
  show u32Bytes (v % 4294967296) = u32Bytes v
  rw [u32Bytes, u32Bytes, hhigh, u16Bytes_mod, ← u16Bytes_mod (v % 4294967296), hlow, u16Bytes_mod]

theorem u64Bytes_mod (v : Nat) : u64Bytes (v % u64_range) = u64Bytes v := by
  have hhigh : v % 18446744073709551616 / 4294967296 = v / 4294967296 % u32_range := by
    show _ = v / 4294967296 % 4294967296
    omega
  have hlow : v % 18446744073709551616 % u32_range = v % u32_range := by
    show v % 18446744073709551616 % 4294967296 = v % 4294967296
    omega
  show u64Bytes (v % 18446744073709551616) = u64Bytes v
  rw [u64Bytes, u64Bytes, hhigh, u32Bytes_mod, ← u32Bytes_mod (v % 18446744073709551616), hlow,
    u32Bytes_mod]

theorem i64Bytes_wrapped (v : Int) : i64Bytes (wrapped_i64 v) = i64Bytes v := by
  have hmod : wrapped_i64 v % 18446744073709551616 = v % 18446744073709551616 := by
    unfold wrapped_i64
    omega
  rw [i64Bytes, i64Bytes, hmod]

namespace Transport

def wrapped_id {tag : IdTag} (id : StrongId tag) : StrongId tag := ⟨id.value % u64_range⟩

theorem machine_wrapped_id {tag : IdTag} (id : StrongId tag) : (wrapped_id id).machine :=
  Nat.mod_lt _ (by decide)

/-- A lease as the wire holds it. -/
def wrapped_lease (l : DrainLease) : DrainLease :=
  { l with
    id := wrapped_id l.id
    targets := l.targets.map (fun t => { t with index := t.index % u32_range })
    granted_at := wrapped_i64 l.granted_at
    expires_at := wrapped_i64 l.expires_at
    attempt := { job := wrapped_id l.attempt.job, generation := wrapped_id l.attempt.generation
                 ordinal := wrapped_id l.attempt.ordinal }
    owner := { controller := wrapped_id l.owner.controller
               boot_epoch := wrapped_id l.owner.boot_epoch
               nonce := l.owner.nonce % u64_range }
    epoch := l.epoch % u64_range }

theorem encode_wrapped_lease (l : DrainLease) :
    encode_drain_lease_body (wrapped_lease l) = encode_drain_lease_body l := by
  have htarget : ∀ t : TargetId,
      target_bytes { t with index := t.index % u32_range } = target_bytes t := by
    intro t
    simp [target_bytes, u32Bytes_mod]
  simp [encode_drain_lease_body, wrapped_lease, wrapped_id, u64Bytes_mod, i64Bytes_wrapped,
    attempt_bytes, incarnation_bytes, list_bytes, htarget, List.flatMap_map]

theorem sendable_wrapped_lease {l : DrainLease}
    (h : l.targets.length ≤ limits.kMaxDrainTargetsPerRequest) :
    sendable_lease (wrapped_lease l) where
  id := machine_wrapped_id _
  targets := by simpa [wrapped_lease] using h
  target := by
    intro t ht
    simp only [wrapped_lease, List.mem_map] at ht
    obtain ⟨t', _, rfl⟩ := ht
    exact Nat.mod_lt _ (by decide)
  granted_at := i64_range_wrapped _
  expires_at := i64_range_wrapped _
  attempt := ⟨machine_wrapped_id _, machine_wrapped_id _, machine_wrapped_id _⟩
  owner := ⟨machine_wrapped_id _, machine_wrapped_id _, Nat.mod_lt _ (by decide)⟩
  epoch := Nat.mod_lt _ (by decide)

/-- A lease with no more targets than a request may have is always understood. -/
theorem lease_body_understood {l : DrainLease}
    (h : l.targets.length ≤ limits.kMaxDrainTargetsPerRequest) :
    decode_drain_lease_body (encode_drain_lease_body l) = .ok (wrapped_lease l) := by
  rw [← encode_wrapped_lease l]
  exact decode_encode_drain_lease (sendable_wrapped_lease h)

/-! ## Envelopes and frames -/

/-- A message that is too long is left out; the rest of the envelope arrives. -/
theorem envelope_understood {e : RpcEnvelope} (hop : e.op < 65536)
    (hbody : e.body.length ≤ limits.kMaxFrameBytes) :
    decode_envelope (encode_envelope e) =
      .ok { e with message := clip limits.kMaxDetailLength e.message } := by
  have hclip : encode_envelope { e with message := clip limits.kMaxDetailLength e.message } =
      encode_envelope e := by
    simp [encode_envelope, ByteWriter.str_buffer, ByteWriter.blob_clipped, kMaxDetailLength_le,
      strBytes, limits.kMaxFrameBytes]
  rw [← hclip]
  exact decode_encode_envelope ⟨hop, clip_length_le _ _, hbody⟩

theorem envelope_length (e : RpcEnvelope) :
    (encode_envelope e).length ≤ 10 + limits.kMaxDetailLength + e.body.length := by
  have hmessage := strBytes_length_le limits.kMaxDetailLength e.message
  have hbody : (clip limits.kMaxFrameBytes e.body).length ≤ e.body.length := by
    unfold clip
    split
    · exact Nat.zero_le _
    · exact Nat.le_refl _
  have hbytes : encode_envelope e = u16Bytes kEnvelopeLayout ++ (u16Bytes e.op ++
      (strBytes limits.kMaxDetailLength e.message ++ blobBytes limits.kMaxFrameBytes e.body)) := by
    simp [encode_envelope, ByteWriter.str_buffer, ByteWriter.blob_clipped, kMaxDetailLength_le,
      limits.kMaxFrameBytes]
  simp only [hbytes, blobBytes, List.length_append, u16Bytes_length, u32Bytes_length]
  omega

/-- The payload of a frame that carries an envelope with a body of at most half a frame. -/
theorem envelope_fits {e : RpcEnvelope} (h : e.body.length ≤ limits.kMaxFrameBytes / 2 + 6) :
    (encode_envelope e).length ≤ limits.kMaxFrameBytes := by
  have hlength := envelope_length e
  simp only [limits.kMaxFrameBytes, limits.kMaxDetailLength] at h hlength ⊢
  omega

end Transport

open Transport

theorem ErrorCode.code_lt (code : ErrorCode) : code.code < 65536 := by cases code <;> decide

theorem ErrorCode.code_eq_ok {code : ErrorCode} (h : code.code = kStatusOk) : code = .Ok := by
  revert h
  cases code <;> decide

namespace RemoteDrainPort

variable {r : RemoteDrainPort} {op : OpCode} {body : Text}

/-- Frames within the bound reach the other end unchanged. -/
theorem exchange_delivers {request : Transport.Frame} (hrequest : validate_frame request = .ok ())
    (hresponse : validate_frame (r.service.respond request).1 = .ok ())
    (hid : (r.service.respond request).1.request_id = request.request_id) :
    r.exchange request = (.ok (r.service.respond request).1, (r.service.respond request).2) := by
  unfold exchange
  simp only [hrequest, decode_encode_frame hrequest, decode_frame_header_encode hresponse,
    decode_encode_frame hresponse, hid, ne_eq, not_true_eq_false, if_false]

theorem validate_envelope_frame (type : FrameType) (hknown : is_known_frame_type type.code = true)
    (flags : UInt32) (request_id : UInt64) {e : RpcEnvelope}
    (h : e.body.length ≤ limits.kMaxFrameBytes / 2 + 6) :
    validate_frame { type, flags, request_id, payload := encode_envelope e } = .ok () := by
  have hfits := envelope_fits h
  have hversion : (1 : UInt16).toNat = kProtocolVersion := rfl
  simp [validate_frame, hknown, hversion, refuse_if, ok_status, Result.ok_bind, hfits]

/-- What the body of a reply may be: within its bound, or an error that is one. -/
def Replies (outcome : Result Text) : Prop :=
  match outcome with
  | .ok reply => reply.length ≤ limits.kMaxFrameBytes / 2 + 6
  | .error e => e.code ≠ .Ok

/-- A call hands the body to the service and, when the service succeeds, its reply back. The code
    of an error is read and then dropped. -/
theorem call_reaches (hbody : body.length ≤ limits.kMaxFrameBytes / 2 + 6)
    (hreplies : Replies (r.service.handle { op := op.code, body }).1) :
    (∀ reply, (r.service.handle { op := op.code, body }).1 = .ok reply →
      (r.call op body).1 = .ok reply) ∧
    (∀ e, (r.service.handle { op := op.code, body }).1 = .error e →
      ∃ detail, (r.call op body).1 = .error (make_error .DrainFailed detail)) ∧
    (r.call op body).2.service = (r.service.handle { op := op.code, body }).2 := by
  have hunderstood : decode_envelope (encode_envelope { op := op.code, body }) =
      .ok { op := op.code, body } := by
    rw [envelope_understood op.code_lt (show body.length ≤ _ by
      simp only [limits.kMaxFrameBytes] at hbody ⊢; omega)]
    rfl
  -- The service reads nothing of a request but its payload, and answers under its id.
  have hanswer : ∀ request : Transport.Frame,
    request.payload = encode_envelope { op := op.code, body } →
      r.service.respond request =
        ({ type := .Response, request_id := request.request_id
           payload := encode_envelope
             (DrainService.reply (r.service.handle { op := op.code, body }).1) },
          (r.service.handle { op := op.code, body }).2) := by
    intro request hpayload
    rw [DrainService.respond, hpayload, hunderstood]
  generalize r.service.handle { op := op.code, body } = handled at hreplies hanswer ⊢
  obtain ⟨outcome, service⟩ := handled
  have hreply : (DrainService.reply outcome).body.length ≤ limits.kMaxFrameBytes / 2 + 6 := by
    cases outcome with
    | ok reply => exact hreplies
    | error e => exact Nat.zero_le _
  have hop : (DrainService.reply outcome).op < 65536 := by
    cases outcome with
    | ok reply => exact (by decide : kStatusOk < 65536)
    | error e => exact e.code.code_lt
  have hread := envelope_understood hop (show (DrainService.reply outcome).body.length ≤ _ by
    simp only [limits.kMaxFrameBytes] at hreply ⊢; omega)
  -- Both frames fit, so the exchange delivers the one and returns the other.
  have hexchange : ∀ request : Transport.Frame, validate_frame request = .ok () →
      request.payload = encode_envelope { op := op.code, body } →
      r.exchange request = (.ok { type := .Response, request_id := request.request_id
                                  payload := encode_envelope (DrainService.reply outcome) },
        service) := by
    intro request hvalid hpayload
    have hanswer := hanswer request hpayload
    rw [exchange_delivers hvalid, hanswer]
    · rw [hanswer]
      exact validate_envelope_frame _ rfl 0 _ hreply
    · rw [hanswer]
  unfold call
  simp only [hexchange _ (validate_envelope_frame .Request rfl
    (UInt32.ofNat op.code) r.next_request_id hbody) rfl, hread]
  cases outcome with
  | ok reply => simp [DrainService.reply, kStatusOk]
  | error e =>
    have hcode : e.code.code ≠ kStatusOk := by
      intro hok
      exact hreplies (ErrorCode.code_eq_ok hok)
    simp [DrainService.reply, hcode]

theorem call_of_ok (hbody : body.length ≤ limits.kMaxFrameBytes / 2 + 6) {reply : Text}
    {service : DrainService}
    (handled : r.service.handle { op := op.code, body } = (.ok reply, service))
    (hreply : reply.length ≤ limits.kMaxFrameBytes / 2 + 6) :
    (r.call op body).1 = .ok reply ∧ (r.call op body).2.service = service := by
  have hreplies : Replies (r.service.handle { op := op.code, body }).1 := by
    rw [handled]
    exact hreply
  obtain ⟨hok, _, hservice⟩ := call_reaches hbody hreplies
  rw [handled] at hok hservice
  exact ⟨hok reply rfl, hservice⟩

theorem call_of_error (hbody : body.length ≤ limits.kMaxFrameBytes / 2 + 6) {e : Error}
    {service : DrainService}
    (handled : r.service.handle { op := op.code, body } = (.error e, service))
    (hcode : e.code ≠ .Ok) :
    (∃ detail, (r.call op body).1 = .error (make_error .DrainFailed detail)) ∧
      (r.call op body).2.service = service := by
  have hreplies : Replies (r.service.handle { op := op.code, body }).1 := by
    rw [handled]
    exact hcode
  obtain ⟨_, herror, hservice⟩ := call_reaches hbody hreplies
  rw [handled] at herror hservice
  exact ⟨herror e rfl, hservice⟩

end RemoteDrainPort

/-! ## Bodies within a frame -/

namespace Transport

theorem lease_ref_fits (lease : DrainLeaseId) (requester : ControllerIncarnation) (extend : Nanos) :
    (encode_drain_lease_ref lease requester extend).length ≤ limits.kMaxFrameBytes / 2 + 6 := by
  have hlength : (encode_drain_lease_ref lease requester extend).length = 42 := by
    simp [encode_drain_lease_ref]
  rw [hlength]
  decide

theorem request_body_fits {request : DrainRequest}
    (h : request.targets.length ≤ limits.kMaxDrainTargetsPerRequest) :
    (encode_drain_request_body request).length ≤ limits.kMaxFrameBytes / 2 + 6 := by
  have hreason := str_size_le limits.kMaxReasonLength request.reason
  have hlength : (encode_drain_request_body request).length =
      74 + words_size request.targets + str_size limits.kMaxReasonLength request.reason := by
    simp [encode_drain_request_body, ByteWriter.str_buffer, kMaxReasonLength_le]
    omega
  simp only [words_size, limits.kMaxDrainTargetsPerRequest, limits.kMaxReasonLength,
    limits.kMaxFrameBytes] at *
  omega

theorem lease_body_fits {lease : DrainLease}
    (h : lease.targets.length ≤ limits.kMaxDrainTargetsPerRequest) :
    (encode_drain_lease_body lease).length ≤ limits.kMaxFrameBytes / 2 + 6 := by
  have hlength : (encode_drain_lease_body lease).length = 86 + words_size lease.targets := by
    simp [encode_drain_lease_body]
    omega
  simp only [words_size, limits.kMaxDrainTargetsPerRequest, limits.kMaxFrameBytes] at *
  omega

theorem text_body_fits (t : Text) :
    (encode_text_body t).length ≤ limits.kMaxFrameBytes / 2 + 6 := by
  have hclip := clip_length_le (limits.kMaxFrameBytes / 2) t
  have hbytes : encode_text_body t =
      u16Bytes kBodyLayout ++ blobBytes (limits.kMaxFrameBytes / 2) t := by
    simp [encode_text_body, ByteWriter.blob_clipped, limits.kMaxFrameBytes]
  simp only [hbytes, blobBytes, List.length_append, u16Bytes_length, u32Bytes_length]
  omega

/-- Whatever its reason, a request keeps what the service looks at. -/
theorem request_body_understood {r : DrainRequest} (hjob : r.job.machine)
    (hgeneration : r.generation.machine) (hattempt : r.attempt.machine)
    (htarget : ∀ t ∈ r.targets, t.machine) (hduration : i64_range r.lease_duration)
    (hrequester : r.requester.machine)
    (htargets : r.targets.length ≤ limits.kMaxDrainTargetsPerRequest) :
    decode_drain_request_body (encode_drain_request_body r) =
      .ok { r with reason := clip limits.kMaxReasonLength r.reason } := by
  have hclip : encode_drain_request_body
    { r with reason := clip limits.kMaxReasonLength r.reason } =
      encode_drain_request_body r := by
    simp [encode_drain_request_body, ByteWriter.str_buffer, kMaxReasonLength_le, strBytes]
  rw [← hclip]
  exact decode_encode_drain_request ⟨hjob, hgeneration, hattempt, htargets, htarget, hduration,
    clip_length_le _ _, hrequester⟩

end Transport

/-! ## Calls of the port -/

namespace RemoteDrainPort

variable {r : RemoteDrainPort}

def wire_op : DrainCall → OpCode
  | .request_drain _ => .DrainRequest
  | .refresh_drain _ _ _ => .DrainRefresh
  | .query_drain _ _ => .DrainQuery
  | .release_drain _ _ => .DrainRelease

def wire_body : DrainCall → Text
  | .request_drain request => encode_drain_request_body request
  | .refresh_drain lease extend requester => encode_drain_lease_ref lease requester extend
  | .query_drain lease requester => encode_drain_lease_ref lease requester 0
  | .release_drain lease requester => encode_drain_lease_ref lease requester 0

/-- The status a reply is turned into. Only a release does not look for a lease in it. -/
def read_status : DrainCall → Result Text → Status
  | .release_drain _ _, outcome => outcome.map (fun _ => ())
  | _, outcome => (lease_response {} outcome).status

theorem lease_response_status (failed : DrainLease) (outcome : Result Text) :
    (lease_response failed outcome).status = (lease_response {} outcome).status := by
  cases outcome with
  | error e => rfl
  | ok reply =>
    simp only [lease_response]

theorem release_drain_eq (r : RemoteDrainPort) (lease : DrainLeaseId)
    (requester : ControllerIncarnation) :
    r.release_drain lease requester =
      ((r.call .DrainRelease (encode_drain_lease_ref lease requester 0)).1.map (fun _ => ()),
        (r.call .DrainRelease (encode_drain_lease_ref lease requester 0)).2) := by
  unfold release_drain
  generalize r.call .DrainRelease (encode_drain_lease_ref lease requester 0) = called
  obtain ⟨outcome, after⟩ := called
  cases outcome with
  | error e => rfl
  | ok reply => rfl

/-- The envelope a call is sent in. -/
def wire_envelope (call : DrainCall) : RpcEnvelope :=
  { op := (wire_op call).code, body := wire_body call }

/-- A request is checked before it is sent; nothing else is. -/
def Sent (call : DrainCall) : Prop :=
  ∀ request, call = .request_drain request → validate_drain_request request = .ok ()

theorem perform_eq (r : RemoteDrainPort) {call : DrainCall} (sent : Sent call) :
    r.perform call = (read_status call (r.call (wire_op call) (wire_body call)).1,
      (r.call (wire_op call) (wire_body call)).2) := by
  cases call with
  | request_drain request =>
    have hvalid := sent request rfl
    rw [perform, request_drain]
    simp only [hvalid]
    rw [lease_response_status]
    rfl
  | refresh_drain lease extend requester =>
    rw [perform, refresh_drain]
    simp only
    rw [lease_response_status]
    rfl
  | query_drain lease requester =>
    rw [perform, query_drain]
    simp only
    rw [lease_response_status]
    rfl
  | release_drain lease requester => exact r.release_drain_eq lease requester

/-- The service does what it is asked. -/
theorem perform_of_ok {call : DrainCall} (sent : Sent call)
    (hbody : (wire_body call).length ≤ limits.kMaxFrameBytes / 2 + 6) {reply : Text}
    {service : DrainService}
    (handled : r.service.handle (wire_envelope call) = (.ok reply, service))
    (hreply : reply.length ≤ limits.kMaxFrameBytes / 2 + 6)
    (hread : read_status call (.ok reply) = ok_status) :
    (r.perform call).1 = ok_status ∧ (r.perform call).2.service = service := by
  obtain ⟨hcall, hservice⟩ := call_of_ok hbody handled hreply
  rw [r.perform_eq sent]
  generalize r.call (wire_op call) (wire_body call) = called at hcall hservice ⊢
  rw [hcall]
  exact ⟨hread, hservice⟩

/-- Whatever the service refuses it for, the drain has failed. -/
theorem perform_of_error {call : DrainCall} (sent : Sent call)
    (hbody : (wire_body call).length ≤ limits.kMaxFrameBytes / 2 + 6) {e : Error}
    {service : DrainService} (handled : r.service.handle (wire_envelope call) = (.error e, service))
    (hcode : e.code ≠ .Ok) :
    status_code (r.perform call).1 = some .DrainFailed ∧ (r.perform call).2.service = service := by
  obtain ⟨⟨detail, hcall⟩, hservice⟩ := call_of_error hbody handled hcode
  rw [r.perform_eq sent]
  generalize r.call (wire_op call) (wire_body call) = called at hcall hservice ⊢
  rw [hcall]
  cases call with
  | request_drain request => exact ⟨rfl, hservice⟩
  | refresh_drain lease extend requester => exact ⟨rfl, hservice⟩
  | query_drain lease requester => exact ⟨rfl, hservice⟩
  | release_drain lease requester => exact ⟨rfl, hservice⟩

end RemoteDrainPort

end MaintenanceFabric
