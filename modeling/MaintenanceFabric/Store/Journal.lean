import MaintenanceFabric.Core.Hash
import MaintenanceFabric.Store.Records

/-! # The write-ahead journal

    The journal file is a byte list: a 12-byte header, then frames.  A frame
    is a 24-byte header (type, sequence, length, payload checksum, header
    checksum) followed by its payload.  `replay` walks the frames from the
    start and stops at the first one that fails a check; everything after
    that point is cut off.

    File operations are taken to succeed: `fwrite` at the end of the file
    appends, `rename` installs the compacted file.  What can still fail is
    what the code itself checks.
-/

namespace MaintenanceFabric

def kMagic : Nat := 0x4D464A31
def kJournalVersion : Nat := 1
def kFileHeaderBytes : Nat := 12
def kFrameHeaderBytes : Nat := 24

structure JournalOptions where
  path : Text
  create_if_missing : Bool := true
  max_bytes : UInt64 := UInt64.ofNat limits.kMaxJournalBytes
  max_records : UInt64 := UInt64.ofNat limits.kMaxJournalRecords

structure ReplayStats where
  frames : Nat
  records : Nat
  bytes : Nat
  truncated_bytes : Nat
  first_bad_offset : Nat
  truncated : Bool
  detail : Text

/-- An open journal: the file it holds and its counters. -/
structure Journal where
  options : JournalOptions
  file : Text
  replayed : Bool := false
  bytes : Nat := 0
  records : Nat := 0
  next_seq : UInt64 := 1

/-! ## Reading fields -/

def read_u16 (p : Text) : Nat := (p.getD 0 0).toNat * 256 + (p.getD 1 0).toNat

/-- Big-endian despite its name. -/
def read_u32_le (p : Text) : Nat :=
  (p.getD 0 0).toNat * 16777216 + (p.getD 1 0).toNat * 65536 + (p.getD 2 0).toNat * 256 +
    (p.getD 3 0).toNat

def read_u64_be (p : Text) : Nat := (p.take 8).foldl (fun value byte => value * 256 + byte.toNat) 0

theorem read_u16_u16Bytes (v : Nat) (rest : Text) : read_u16 (u16Bytes v ++ rest) = v % 65536 := by
  simp [read_u16, u16Bytes]
  omega

theorem read_u32_le_u32Bytes (v : Nat) (rest : Text) :
    read_u32_le (u32Bytes v ++ rest) = v % 4294967296 := by
  simp [read_u32_le, u32Bytes, u16Bytes]
  omega

theorem read_u64_be_u64Bytes (v : Nat) (rest : Text) :
    read_u64_be (u64Bytes v ++ rest) = v % 18446744073709551616 := by
  simp [read_u64_be, u64Bytes, u32Bytes, u16Bytes]
  omega

/-- Only the first four bytes count. -/
theorem read_u32_le_append {p : Text} (hp : 4 ≤ p.length) (rest : Text) :
    read_u32_le (p ++ rest) = read_u32_le p := by
  match p, hp with
  | a :: b :: c :: d :: p, _ => rfl

theorem read_u32_le_crc (crc : UInt32) : read_u32_le (u32Bytes crc.toNat) = crc.toNat := by
  rw [← List.append_nil (u32Bytes _), read_u32_le_u32Bytes, Nat.mod_eq_of_lt crc.toNat_lt]

theorem byte_ne_getElem {data : Text} {k : Nat} {byte : UInt8} (hk : k < data.length)
    (h : data[k]? ≠ some byte) : byte ≠ data[k] := by
  rintro rfl
  exact h (List.getElem?_eq_getElem hk)

theorem read_u32_le_set_ne (v : Nat) {k : Nat} (hk : k < (u32Bytes v).length) {byte : UInt8}
    (hne : byte ≠ (u32Bytes v)[k]) :
    read_u32_le ((u32Bytes v).set k byte) ≠ read_u32_le (u32Bytes v) := by
  obtain ⟨a, b, c, d, hbytes⟩ : ∃ a b c d, u32Bytes v = [a, b, c, d] := ⟨_, _, _, _, rfl⟩
  simp only [hbytes] at hne ⊢
  have hcell := mt UInt8.toNat_inj.mp hne
  rw [u32Bytes_length] at hk
  rcases k with _ | _ | _ | _ | k
  · simp [read_u32_le] at hcell ⊢
    omega
  · simp [read_u32_le] at hcell ⊢
    omega
  · simp [read_u32_le] at hcell ⊢
    omega
  · simpa [read_u32_le] using hcell
  · omega

/-! ## Opening -/

def file_header : Text := u32Bytes kMagic ++ u16Bytes kJournalVersion ++ u32Bytes 0 ++ [0, 0]

@[simp] theorem file_header_length : file_header.length = kFileHeaderBytes := rfl

def validate_journal_header (magic version : Nat) : Status :=
  if magic ≠ kMagic then
    .error (make_error .CorruptState (text "journal magic does not match Maintenance Fabric"))
  else if version ≠ kJournalVersion then
    .error (make_error .VersionMismatch (text "journal layout revision " ++ decimal version ++
      text " is not supported by this runtime (expected " ++ decimal kJournalVersion ++ text ")"))
  else ok_status

namespace Journal

/-- `Journal::open`; `disk` is the file at the path, if there is one. The flag `replayed` is
    not carried over by the move constructor, so it is false on every journal this returns. -/
def «open» (options : JournalOptions) (disk : Option Text) : Result Journal := do
  refuse_if options.path.isEmpty (invalid_argument (text "journal path is empty"))
  match disk with
  | none =>
      refuse_if (!options.create_if_missing)
        (make_error .NotFound (text "journal file does not exist: " ++ options.path))
      .ok { options, file := file_header, bytes := kFileHeaderBytes }
  | some file =>
      refuse_if (file.length < kFileHeaderBytes)
        (make_error .CorruptState (text "journal is shorter than its header"))
      validate_journal_header (read_u32_le file) (read_u16 (file.drop 4))
      .ok { options, file, bytes := file.length }

/-! ## Replay -/

/-- What an intact frame hands to the visitor. -/
def deliver (record : Record) : Except Text (List Record) :=
  if record.type = .Transaction then
    match decode_transaction_record record with
    | .error _ => .error (text "transaction frame could not be decoded")
    | .ok inner => .ok inner
  else .ok [record]

/-- Read one frame at the front of `data`: the records it delivers and its payload length, or
    the detail that stops the replay. -/
def read_frame (expected_sequence : UInt64) (data : Text) : Except Text (List Record × Nat) :=
  let header := data.take kFrameHeaderBytes
  if header.length < kFrameHeaderBytes then .error (text "final frame header is truncated")
  else if (crc32c (header.take 20)).toNat ≠ read_u32_le (header.drop 20) then
    .error (text "frame header checksum mismatch")
  else
    let type := read_u16 header
    let sequence := read_u64_be (header.drop 4)
    let length := read_u32_le (header.drop 12)
    let payload_crc := read_u32_le (header.drop 16)
    if is_known_record_type type = false then
      .error (text "frame declares an unrecognised record type")
    else if length > limits.kMaxJournalRecordBytes then
      .error (text "frame length exceeds the accepted bound")
    else if sequence ≠ expected_sequence.toNat then .error (text "frame sequence is out of order")
    else
      let buffer := (data.drop kFrameHeaderBytes).take length
      if buffer.length < length then .error (text "final frame payload is truncated")
      else if (crc32c buffer).toNat ≠ payload_crc then
        .error (text "frame payload checksum mismatch")
      else
        match deliver ⟨RecordType.ofCode type, buffer⟩ with
        | .error detail => .error detail
        | .ok delivered => .ok (delivered, length)

/-- The outcome of walking the frames: what was delivered, how many frames and bytes were
    intact, and why the walk stopped early. -/
structure Replayed where
  visited : List Record := []
  frames : Nat := 0
  bytes : Nat := 0
  detail : Text := []

def replay_frames (data : Text) (expected_sequence : UInt64) : Replayed :=
  if data = [] then {}
  else
    match read_frame expected_sequence data with
    | .error detail => { detail }
    | .ok (delivered, length) =>
        let rest := replay_frames (data.drop (kFrameHeaderBytes + length)) (expected_sequence + 1)
        { visited := delivered ++ rest.visited
          frames := rest.frames + 1
          bytes := kFrameHeaderBytes + length + rest.bytes
          detail := rest.detail }
termination_by data.length
decreasing_by
  have := List.length_pos_of_ne_nil ‹data ≠ []›
  simp [kFrameHeaderBytes]
  omega

/-- `Journal::replay`, with the records handed to the visitor in order. -/
def replay (j : Journal) : Result (Journal × ReplayStats × List Record) :=
  if j.file.length < kFileHeaderBytes then
    .error (make_error .CorruptState (text "journal is shorter than its header"))
  else
    let walk := replay_frames (j.file.drop kFileHeaderBytes) 1
    let offset := kFileHeaderBytes + walk.bytes
    let truncated := decide (offset < j.file.length)
    let stats : ReplayStats :=
      { frames := walk.frames
        records := walk.visited.length
        bytes := offset
        truncated_bytes := j.file.length - offset
        first_bad_offset := offset
        truncated
        detail :=
          if truncated = true ∧ walk.detail = [] then
            text "journal ends with bytes that are not a complete frame"
          else walk.detail }
    .ok ({ j with
            file := if truncated then j.file.take offset else j.file
            next_seq := UInt64.ofNat (walk.frames + 1)
            records := walk.frames
            bytes := offset
            replayed := true }, stats, walk.visited)

/-! ## Appending -/

/-- The first 20 bytes of a frame header, the part its checksum covers. -/
def frame_head (record : Record) (sequence : UInt64) : Text :=
  u16Bytes record.type.code ++ ([0, 0] ++ (u64Bytes sequence.toNat ++
    (u32Bytes record.payload.length ++ u32Bytes (crc32c record.payload).toNat)))

def frame_bytes (record : Record) (sequence : UInt64) : Text :=
  frame_head record sequence ++
    (u32Bytes (crc32c (frame_head record sequence)).toNat ++ record.payload)

def write_frame (j : Journal) (record : Record) (sequence : UInt64) : Result Journal := do
  refuse_if (record.payload.length > limits.kMaxJournalRecordBytes)
    (make_error .LimitExceeded (text "record payload exceeds the journal bound"))
  let projected := j.bytes + (kFrameHeaderBytes + record.payload.length)
  refuse_if (projected > j.options.max_bytes.toNat) (make_error .LimitExceeded
    (text "journal would exceed its configured byte bound; compaction is required"))
  refuse_if (j.records ≥ j.options.max_records.toNat) (make_error .LimitExceeded
    (text "journal would exceed its configured record bound; compaction is required"))
  .ok { j with
    file := j.file ++ frame_bytes record sequence
    bytes := projected
    records := j.records + 1 }

def ensure_replayed (j : Journal) : Status :=
  refuse_if (!j.replayed) (make_error .StateConflict
    (text "journal must be replayed before it accepts appends"))

def append (j : Journal) (record : Record) : Result Journal := do
  validate_record record
  refuse_if (record.type = .Transaction)
    (invalid_argument (text "use append_transaction for transactional records"))
  j.ensure_replayed
  let j ← j.write_frame record j.next_seq
  .ok { j with next_seq := j.next_seq + 1 }

/-- The per-record checks of `append_transaction`. -/
def check_transaction : List Record → Status
  | [] => ok_status
  | record :: records => do
      validate_record record
      refuse_if (record.type = .Transaction) (invalid_argument (text "transactions cannot nest"))
      check_transaction records

def append_transaction (j : Journal) (records : List Record) : Result Journal := do
  refuse_if records.isEmpty
    (invalid_argument (text "transaction must contain at least one record"))
  refuse_if (records.length > limits.kMaxRecordsPerTransaction)
    (make_error .LimitExceeded (text "transaction contains too many records"))
  check_transaction records
  j.ensure_replayed
  let transaction := encode_transaction_record records
  refuse_if (transaction.payload.length > limits.kMaxJournalRecordBytes)
    (make_error .LimitExceeded (text "transaction exceeds the journal record bound"))
  let j ← j.write_frame transaction j.next_seq
  .ok { j with next_seq := j.next_seq + 1 }

/-! ## Compaction -/

/-- The frame a compacted journal stores for a record: every ordinary record becomes a
    transaction of its own. -/
def compacted (record : Record) : Record :=
  if record.type = .Transaction then record else encode_transaction_record [record]

/-- The loop of `rewrite`: `out` is the compaction target so far. -/
def rewrite_frames (options : JournalOptions) : List Record → UInt64 → Text → Result Text
  | [], _, out => .ok out
  | record :: records, sequence, out => do
      validate_record record
      refuse_if ((compacted record).payload.length > limits.kMaxJournalRecordBytes)
        (make_error .LimitExceeded (text "compaction record exceeds the journal bound"))
      let out := out ++ frame_bytes (compacted record) sequence
      refuse_if (out.length > options.max_bytes.toNat)
        (make_error .LimitExceeded (text "compacted journal exceeds its byte bound"))
      rewrite_frames options records (sequence + 1) out

/-- `Journal::rewrite`. The frames are numbered from 1; the journal is then reopened on the new
    file, and the sequence counter it had before is put back. -/
def rewrite (j : Journal) (records : List Record) : Result Journal := do
  refuse_if (records.length > j.options.max_records.toNat)
    (make_error .LimitExceeded (text "compacted journal would exceed the record bound"))
  let file ← rewrite_frames j.options records 1 file_header
  let reopened ← Journal.open j.options (some file)
  .ok { reopened with next_seq := j.next_seq, records := records.length, replayed := true }

end Journal

end MaintenanceFabric
