import MaintenanceFabric.Store.Journal

/-! # Wire frames

    What two processes exchange: a 32-byte header and a payload.  The header
    carries the length and the checksum of the payload and, in its last four
    bytes, the checksum of the 28 bytes before them.  `decode_frame` reads a
    whole buffer, so the declared length decides where the buffer has to end.

    Every byte of a frame is under one of the two checksums or is part of the
    second one, so a frame with one byte changed is never decoded.
-/

namespace MaintenanceFabric

namespace Transport

/-- "MF". -/
def kMagic : Nat := 0x4D46
def kProtocolVersion : Nat := 1
def kFrameHeaderBytes : Nat := 32

inductive FrameType where
  | Unknown | Hello | HelloAck | Request | Response | Error | Heartbeat | Goodbye
  deriving DecidableEq, Repr

def FrameType.code : FrameType → Nat
  | .Unknown => 0
  | .Hello => 1
  | .HelloAck => 2
  | .Request => 3
  | .Response => 4
  | .Error => 5
  | .Heartbeat => 6
  | .Goodbye => 7

/-- `static_cast<FrameType>`. -/
def FrameType.ofCode (code : Nat) : FrameType :=
  [.Unknown, .Hello, .HelloAck, .Request, .Response, .Error, .Heartbeat,
    .Goodbye].getD code .Unknown

@[simp] theorem FrameType.ofCode_code (t : FrameType) : ofCode t.code = t := by cases t <;> rfl

theorem FrameType.code_lt (t : FrameType) : t.code < 65536 := by cases t <;> decide

def is_known_frame_type (value : Nat) : Bool :=
  decide (value ≥ FrameType.Hello.code) && decide (value ≤ FrameType.Goodbye.code)

structure Frame where
  version : UInt16 := 1
  type : FrameType := .Unknown
  flags : UInt32 := 0
  request_id : UInt64 := 0
  payload : Text := []
  deriving DecidableEq

structure FrameHeader where
  version : UInt16
  type : FrameType
  flags : UInt32
  request_id : UInt64
  payload_length : Nat

def validate_frame (frame : Frame) : Status := do
  refuse_if (!is_known_frame_type frame.type.code)
    (invalid_argument (text "frame type is not recognised"))
  refuse_if (frame.version.toNat ≠ kProtocolVersion) (make_error .VersionMismatch
    (text "frame protocol revision " ++ decimal frame.version.toNat ++
      text " is not supported (expected " ++ decimal kProtocolVersion ++ text ")"))
  refuse_if (frame.payload.length > limits.kMaxFrameBytes)
    (make_error .LimitExceeded (text "frame payload exceeds the configured bound"))

/-! ## Encoding -/

/-- The 28 bytes the header checksum covers. -/
def frame_head (frame : Frame) : Text :=
  u16Bytes kMagic ++ (u16Bytes frame.version.toNat ++ (u16Bytes frame.type.code ++ ([0, 0] ++
    (u32Bytes frame.flags.toNat ++ (u64Bytes frame.request_id.toNat ++
      (u32Bytes frame.payload.length ++ u32Bytes (crc32c frame.payload).toNat))))))

def encode_frame (frame : Frame) : Text :=
  frame_head frame ++ (u32Bytes (crc32c (frame_head frame)).toNat ++ frame.payload)

theorem encode_frame_length (frame : Frame) :
    (encode_frame frame).length = kFrameHeaderBytes + frame.payload.length := by
  have hhead : (frame_head frame).length = 28 := rfl
  simp only [encode_frame, List.length_append, hhead, u32Bytes_length, kFrameHeaderBytes]
  omega

/-! ## Decoding -/

/-- `read_u32`, which reads the same four bytes as the journal does. -/
def read_u32 : Text → Nat := read_u32_le

/-- `read_u64`. -/
def read_u64 : Text → Nat := read_u64_be

def decode_frame_header (bytes : Text) : Result FrameHeader := do
  refuse_if (bytes.length < kFrameHeaderBytes)
    (make_error .CorruptState (text "frame header is truncated"))
  refuse_if (read_u16 bytes ≠ kMagic)
    (make_error .CorruptState (text "frame magic does not match Maintenance Fabric"))
  refuse_if ((crc32c (bytes.take 28)).toNat ≠ read_u32 (bytes.drop 28))
    (make_error .CorruptState (text "frame header checksum mismatch"))
  let version := read_u16 (bytes.drop 2)
  let type := read_u16 (bytes.drop 4)
  refuse_if (!is_known_frame_type type)
    (make_error .CorruptState (text "frame declares an unrecognised type"))
  let flags := read_u32 (bytes.drop 8)
  let request_id := read_u64 (bytes.drop 12)
  let payload_length := read_u32 (bytes.drop 20)
  refuse_if (payload_length > limits.kMaxFrameBytes)
    (make_error .LimitExceeded (text "frame declares a payload beyond the bound"))
  refuse_if (version ≠ kProtocolVersion) (make_error .VersionMismatch
    (text "frame protocol revision " ++ decimal version ++ text " is not supported"))
  .ok { version := UInt16.ofNat version, type := FrameType.ofCode type
        flags := UInt32.ofNat flags, request_id := UInt64.ofNat request_id, payload_length }

def decode_frame (bytes : Text) : Result Frame := do
  let header ← decode_frame_header bytes
  refuse_if (bytes.length ≠ kFrameHeaderBytes + header.payload_length)
    (make_error .CorruptState (text "frame length does not match its header"))
  refuse_if ((crc32c ((bytes.drop kFrameHeaderBytes).take header.payload_length)).toNat ≠
      read_u32 (bytes.drop 24))
    (make_error .CorruptState (text "frame payload checksum mismatch"))
  .ok { version := header.version, type := header.type, flags := header.flags
        request_id := header.request_id, payload := bytes.drop kFrameHeaderBytes }

/-! ## Round trip -/

/-- A header that was written reads back. -/
theorem decode_frame_header_encode {frame : Frame} (h : validate_frame frame = .ok ()) :
    decode_frame_header (encode_frame frame) = .ok
      { version := frame.version, type := frame.type, flags := frame.flags
        request_id := frame.request_id, payload_length := frame.payload.length } := by
  simp only [validate_frame, Result.bind_eq_ok, refuse_if_eq_ok, decide_eq_false_iff_not,
    not_not, Bool.not_eq_false'] at h
  obtain ⟨_, hknown, _, hversion, hsize⟩ := h
  have hfit : frame.payload.length < 4294967296 := by
    have : limits.kMaxFrameBytes < 4294967296 := by decide
    omega
  have hlength := encode_frame_length frame
  have hmagic : read_u16 (encode_frame frame) = kMagic := by
    rw [encode_frame, frame_head, List.append_assoc, read_u16_u16Bytes]
    rfl
  have hsum : read_u32 ((encode_frame frame).drop 28) =
    (crc32c ((encode_frame frame).take 28)).toNat := by
    have hdrop : (encode_frame frame).drop 28 =
        u32Bytes (crc32c (frame_head frame)).toNat ++ frame.payload := List.drop_left' rfl
    have htake : (encode_frame frame).take 28 = frame_head frame := List.take_left' rfl
    rw [hdrop, htake, read_u32, read_u32_le_u32Bytes, Nat.mod_eq_of_lt (UInt32.toNat_lt _)]
  have hver : read_u16 ((encode_frame frame).drop 2) = frame.version.toNat := by
    rw [show (encode_frame frame).drop 2 = u16Bytes frame.version.toNat ++ _ from rfl,
      read_u16_u16Bytes, Nat.mod_eq_of_lt (UInt16.toNat_lt _)]
  have htype : read_u16 ((encode_frame frame).drop 4) = frame.type.code := by
    rw [show (encode_frame frame).drop 4 = u16Bytes frame.type.code ++ _ from rfl,
      read_u16_u16Bytes, Nat.mod_eq_of_lt frame.type.code_lt]
  have hflags : read_u32 ((encode_frame frame).drop 8) = frame.flags.toNat := by
    rw [show (encode_frame frame).drop 8 = u32Bytes frame.flags.toNat ++ _ from rfl,
      read_u32, read_u32_le_u32Bytes, Nat.mod_eq_of_lt (UInt32.toNat_lt _)]
  have hid : read_u64 ((encode_frame frame).drop 12) = frame.request_id.toNat := by
    rw [show (encode_frame frame).drop 12 = u64Bytes frame.request_id.toNat ++ _ from rfl,
      read_u64, read_u64_be_u64Bytes, Nat.mod_eq_of_lt (UInt64.toNat_lt _)]
  have hlen : read_u32 ((encode_frame frame).drop 20) = frame.payload.length := by
    rw [show (encode_frame frame).drop 20 = u32Bytes frame.payload.length ++ _ from rfl,
      read_u32, read_u32_le_u32Bytes, Nat.mod_eq_of_lt hfit]
  have hwhole : ¬ (encode_frame frame).length < kFrameHeaderBytes := by omega
  have hback : UInt16.ofNat kProtocolVersion = frame.version := by
    rw [← hversion, UInt16.ofNat_toNat]
  simp [decode_frame_header, hwhole, hmagic, hsum, hver, htype, hflags, hid, hlen, hknown, hversion,
    hsize, hback, refuse_if, ok_status, Result.ok_bind]

theorem decode_encode_frame {frame : Frame} (h : validate_frame frame = .ok ()) :
    decode_frame (encode_frame frame) = .ok frame := by
  have hdrop : (encode_frame frame).drop kFrameHeaderBytes = frame.payload := by
    rw [encode_frame, ← List.append_assoc]
    exact List.drop_left' rfl
  have hcrc : read_u32 ((encode_frame frame).drop 24) = (crc32c frame.payload).toNat := by
    rw [show (encode_frame frame).drop 24 = u32Bytes (crc32c frame.payload).toNat ++ _ from rfl,
      read_u32, read_u32_le_u32Bytes, Nat.mod_eq_of_lt (UInt32.toNat_lt _)]
  rw [decode_frame, decode_frame_header_encode h]
  simp [Result.ok_bind, encode_frame_length, hdrop, hcrc, refuse_if, ok_status]

/-! ## Damage -/

/-- What a buffer that decodes has passed, cut into the 28 bytes under the header checksum,
    that checksum, and the rest. -/
theorem decode_frame_parts {head sum body : Text} {frame : Frame} (hhead : head.length = 28)
    (hsum : sum.length = 4) (h : decode_frame (head ++ (sum ++ body)) = .ok frame) :
    (crc32c head).toNat = read_u32 sum ∧ body.length = read_u32 (head.drop 20) ∧
      (crc32c body).toNat = read_u32 (head.drop 24) := by
  simp only [decode_frame, Result.bind_eq_ok, refuse_if_eq_ok, decide_eq_false_iff_not,
    not_not] at h
  obtain ⟨header, hheader, _, hlength, _, hpayload, _⟩ := h
  simp only [decode_frame_header, Result.bind_eq_ok, refuse_if_eq_ok, decide_eq_false_iff_not,
    not_not, Except.ok.injEq] at hheader
  obtain ⟨_, _, _, _, _, hcrc, _, _, _, _, _, _, rfl⟩ := hheader
  have hdeclared : ∀ k, k + 4 ≤ 28 →
      read_u32 ((head ++ (sum ++ body)).drop k) = read_u32 (head.drop k) := by
    intro k hk
    rw [List.drop_append_of_le_length (by omega)]
    exact read_u32_le_append (by rw [List.length_drop]; omega) _
  have hrest : (head ++ (sum ++ body)).drop kFrameHeaderBytes = body := by
    rw [← List.append_assoc]
    exact List.drop_left' (by rw [List.length_append, hhead, hsum]; rfl)
  rw [List.take_left' hhead, List.drop_left' hhead] at hcrc
  have hstored : read_u32 (sum ++ body) = read_u32 sum := read_u32_le_append hsum.ge _
  rw [hstored] at hcrc
  simp only [hdeclared 20 (by omega), List.length_append, hhead, hsum, kFrameHeaderBytes] at hlength
  have hbody : body.length = read_u32 (head.drop 20) := by omega
  rw [hrest, hdeclared 20 (by omega), ← hbody, List.take_length,
    hdeclared 24 (by omega)] at hpayload
  exact ⟨hcrc, hbody, hpayload⟩

/-- Nothing decodes from a buffer that contradicts one of the checks. -/
theorem decode_frame_fails {bytes : Text} (h : ∀ frame, decode_frame bytes ≠ .ok frame) :
    ∃ e, decode_frame bytes = .error e := by
  cases hread : decode_frame bytes with
  | error e => exact ⟨e, rfl⟩
  | ok frame => exact absurd hread (h frame)

variable {frame : Frame}

theorem head_damaged {k : Nat} {byte : UInt8} (hk : k < 28)
    (hne : (frame_head frame)[k]? ≠ some byte)
    (found : Frame) :
    decode_frame ((frame_head frame).set k byte ++
      (u32Bytes (crc32c (frame_head frame)).toNat ++ frame.payload)) ≠ .ok found := by
  intro hread
  have hlength : k < (frame_head frame).length := hk
  obtain ⟨heq, -⟩ := decode_frame_parts (by rw [List.length_set]; rfl) rfl hread
  rw [read_u32, read_u32_le_crc] at heq
  exact crc32c_set_ne hlength (byte_ne_getElem hlength hne) (UInt32.toNat_inj.mp heq)

theorem sum_damaged {k : Nat} {byte : UInt8} (hk : k < 4)
    (hne : (u32Bytes (crc32c (frame_head frame)).toNat)[k]? ≠ some byte) (found : Frame) :
    decode_frame (frame_head frame ++
      ((u32Bytes (crc32c (frame_head frame)).toNat).set k byte ++ frame.payload)) ≠ .ok found := by
  intro hread
  have hlength : k < (u32Bytes (crc32c (frame_head frame)).toNat).length := hk
  obtain ⟨heq, -⟩ := decode_frame_parts rfl (by rw [List.length_set]; rfl) hread
  exact read_u32_le_set_ne _ hlength (byte_ne_getElem hlength hne)
    (heq.symm.trans (read_u32_le_crc _).symm)

theorem payload_damaged {k : Nat} {byte : UInt8} (hk : k < frame.payload.length)
    (hne : frame.payload[k]? ≠ some byte) (found : Frame) :
    decode_frame (frame_head frame ++
      (u32Bytes (crc32c (frame_head frame)).toNat ++ frame.payload.set k byte)) ≠ .ok found := by
  intro hread
  obtain ⟨-, -, heq⟩ := decode_frame_parts rfl rfl hread
  have hstored : (frame_head frame).drop 24 = u32Bytes (crc32c frame.payload).toNat := rfl
  rw [hstored, read_u32, read_u32_le_crc] at heq
  exact crc32c_set_ne hk (byte_ne_getElem hk hne) (UInt32.toNat_inj.mp heq)

/-- No byte of a frame can change unnoticed. -/
theorem decode_frame_damaged {k : Nat} {byte : UInt8} (hk : k < (encode_frame frame).length)
    (hne : (encode_frame frame)[k]? ≠ some byte) :
    ∃ e, decode_frame ((encode_frame frame).set k byte) = .error e := by
  apply decode_frame_fails
  rw [encode_frame_length, kFrameHeaderBytes] at hk
  have hhead : (frame_head frame).length = 28 := rfl
  have hsum : (u32Bytes (crc32c (frame_head frame)).toNat).length = 4 := rfl
  by_cases h28 : k < 28
  · rw [encode_frame, List.getElem?_append_left (by omega)] at hne
    rw [encode_frame, List.set_append_left _ _ (by omega)]
    exact head_damaged h28 hne
  · rw [encode_frame, List.getElem?_append_right (by omega)] at hne
    rw [encode_frame, List.set_append_right _ _ (by omega)]
    by_cases h32 : k < 32
    · rw [List.getElem?_append_left (by omega)] at hne
      rw [List.set_append_left _ _ (by omega)]
      exact sum_damaged (by omega) hne
    · rw [List.getElem?_append_right (by omega)] at hne
      rw [List.set_append_right _ _ (by omega)]
      exact payload_damaged (by omega) hne

/-- A frame with more or fewer bytes behind its header than it declares. -/
theorem decode_frame_resized (h : validate_frame frame = .ok ()) {body : Text}
    (hne : body.length ≠ frame.payload.length) :
    ∃ e, decode_frame (frame_head frame ++
      (u32Bytes (crc32c (frame_head frame)).toNat ++ body)) = .error e := by
  apply decode_frame_fails
  intro found hread
  obtain ⟨-, hlength, -⟩ := decode_frame_parts rfl rfl hread
  simp only [validate_frame, Result.bind_eq_ok, refuse_if_eq_ok, decide_eq_false_iff_not] at h
  obtain ⟨_, _, _, _, hsize⟩ := h
  have hfit : frame.payload.length < 4294967296 := by
    have : limits.kMaxFrameBytes < 4294967296 := by decide
    omega
  have hdeclared : (frame_head frame).drop 20 =
      u32Bytes frame.payload.length ++ u32Bytes (crc32c frame.payload).toNat := rfl
  rw [hdeclared, read_u32, read_u32_le_u32Bytes, Nat.mod_eq_of_lt hfit] at hlength
  exact hne hlength

theorem decode_frame_extended (h : validate_frame frame = .ok ())
    {more : Text} (hmore : more ≠ []) :
    ∃ e, decode_frame (encode_frame frame ++ more) = .error e := by
  rw [encode_frame, List.append_assoc, List.append_assoc]
  apply decode_frame_resized h
  have := List.length_pos_iff.mpr hmore
  rw [List.length_append]
  omega

theorem decode_frame_cut (h : validate_frame frame = .ok ()) {bytes : Text}
    (hfront : bytes <+: encode_frame frame) (hproper : bytes ≠ encode_frame frame) :
    ∃ e, decode_frame bytes = .error e := by
  have hshort : bytes.length < (encode_frame frame).length := by
    have := hfront.length_le
    have : bytes.length ≠ (encode_frame frame).length :=
      fun heq => hproper (hfront.eq_of_length heq)
    omega
  rw [encode_frame_length, kFrameHeaderBytes] at hshort
  by_cases h32 : bytes.length < 32
  · -- Not even a header.
    refine ⟨make_error .CorruptState (text "frame header is truncated"), ?_⟩
    rw [decode_frame, decode_frame_header, refuse_if,
      if_pos (decide_eq_true (show bytes.length < kFrameHeaderBytes from h32))]
    rfl
  · have hbytes : bytes = frame_head frame ++ (u32Bytes (crc32c (frame_head frame)).toNat ++
        frame.payload.take (bytes.length - 32)) := by
      have hheader : (frame_head frame ++ u32Bytes (crc32c (frame_head frame)).toNat).length = 32 :=
        rfl
      have htake := List.prefix_iff_eq_take.mp hfront
      rw [encode_frame, ← List.append_assoc, List.take_append, hheader,
        List.take_of_length_le (by omega), List.append_assoc] at htake
      exact htake
    rw [hbytes]
    apply decode_frame_resized h
    rw [List.length_take]
    omega

/-! ## Wire frames -/

/-- A frame that passes `validate_frame` is decoded to itself; a change of one of its bytes, a
    proper prefix and a proper extension are refused. -/
theorem wire_frames (frame : Frame) (h : validate_frame frame = .ok ()) :
    decode_frame (encode_frame frame) = .ok frame ∧
      (∀ k < (encode_frame frame).length, ∀ byte, (encode_frame frame)[k]? ≠ some byte →
        ∃ e, decode_frame ((encode_frame frame).set k byte) = .error e) ∧
      (∀ bytes, bytes <+: encode_frame frame → bytes ≠ encode_frame frame →
        ∃ e, decode_frame bytes = .error e) ∧
      ∀ more, more ≠ [] → ∃ e, decode_frame (encode_frame frame ++ more) = .error e := by
  refine ⟨decode_encode_frame h, ?_, ?_, ?_⟩
  · intro k hk byte hne
    exact decode_frame_damaged hk hne
  · intro bytes hfront hproper
    exact decode_frame_cut h hfront hproper
  · intro more hmore
    exact decode_frame_extended h hmore

/-- A request with three bytes of payload, and the same one with its last byte inverted. -/
theorem request_frame_survives :
    let frame : Frame := { type := .Request, request_id := 9, payload := [1, 2, 3] }
    decode_frame (encode_frame frame) = .ok frame ∧
      ∃ e, decode_frame ((encode_frame frame).set 34 0xFC) = .error e := by
  intro frame
  obtain ⟨hwhole, hdamaged, -, -⟩ := wire_frames frame rfl
  exact ⟨hwhole, hdamaged 34 (by decide +kernel) 0xFC (by decide +kernel)⟩

end Transport

end MaintenanceFabric
