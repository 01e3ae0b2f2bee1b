import MaintenanceFabric.Core.Bytes

/-! # Journal records

    A record is a type tag and a payload.  Every payload opens with its own
    layout revision.  The transaction record is the atomic unit: it wraps a
    list of ordinary records, and replay delivers all of them or none.
-/

namespace MaintenanceFabric

inductive RecordType where
  | Unknown | Transaction | Topology | Policy | Job | Evidence | Reservation | Lease
  | Quarantine | Boot | JobErased | ReservationErased | LeaseErased | QuarantineErased | Marker
  deriving DecidableEq, Repr

/-- The 16-bit tag of each record type. -/
def RecordType.code : RecordType → Nat
  | .Unknown => 0
  | .Transaction => 1
  | .Topology => 2
  | .Policy => 3
  | .Job => 4
  | .Evidence => 5
  | .Reservation => 6
  | .Lease => 7
  | .Quarantine => 8
  | .Boot => 9
  | .JobErased => 10
  | .ReservationErased => 11
  | .LeaseErased => 12
  | .QuarantineErased => 13
  | .Marker => 14

/-- `static_cast<RecordType>`, used on tags already known to be in range. -/
def RecordType.ofCode : Nat → RecordType
  | 1 => .Transaction
  | 2 => .Topology
  | 3 => .Policy
  | 4 => .Job
  | 5 => .Evidence
  | 6 => .Reservation
  | 7 => .Lease
  | 8 => .Quarantine
  | 9 => .Boot
  | 10 => .JobErased
  | 11 => .ReservationErased
  | 12 => .LeaseErased
  | 13 => .QuarantineErased
  | 14 => .Marker
  | _ => .Unknown

@[simp] theorem RecordType.ofCode_code (t : RecordType) : ofCode t.code = t := by cases t <;> rfl

theorem RecordType.code_lt (t : RecordType) : t.code < 65536 := by cases t <;> decide

def is_known_record_type (value : Nat) : Bool := decide (1 ≤ value) && decide (value ≤ 14)

structure Record where
  type : RecordType
  payload : Text
  deriving DecidableEq, Repr

/-- The type tags and sizes `validate_record` lets through. -/
def Record.writable (record : Record) : Bool :=
  is_known_record_type record.type.code &&
    decide (record.payload.length ≤ limits.kMaxJournalRecordBytes)

def validate_record (record : Record) : Status :=
  if record.type = .Unknown ∨ is_known_record_type record.type.code = false then
    .error (make_error .CorruptState (text "record has an unrecognised type"))
  else if record.payload.length > limits.kMaxJournalRecordBytes then
    .error (make_error .LimitExceeded (text "record payload exceeds the journal bound"))
  else ok_status

theorem writable_of_validate_record {record : Record} (h : validate_record record = .ok ()) :
    record.writable = true := by
  unfold validate_record at h
  split at h
  · cases h
  · next hknown =>
    split at h
    · cases h
    · next hsize =>
      have hk : is_known_record_type record.type.code = true := by
        cases hc : is_known_record_type record.type.code
        · exact absurd (.inr hc) hknown
        · rfl
      simp only [Record.writable, hk, Bool.true_and, decide_eq_true_eq]
      omega

theorem Record.writable_iff {record : Record} :
    record.writable = true ↔ is_known_record_type record.type.code = true ∧
      record.payload.length ≤ limits.kMaxJournalRecordBytes := by
  simp [Record.writable]

/-! ## Transactions -/

def kTransactionLayout : Nat := 1

def check_layout (reader : ByteReader) (expected : Nat) (what : Text) : Status × ByteReader :=
  let (layout, reader) := reader.u16
  if reader.ok = false then
    (.error (make_error .CorruptState (what ++ text " record is truncated")), reader)
  else if layout ≠ expected then
    (.error (make_error .VersionMismatch (what ++ text " record layout " ++ decimal layout ++
      text " is not supported (expected " ++ decimal expected ++ text ")")), reader)
  else (ok_status, reader)

def encode_transaction_record (records : List Record) : Record :=
  let writer := (({} : ByteWriter).u16 kTransactionLayout).u32 records.length
  let writer := records.foldl (fun (w : ByteWriter) record =>
    (w.u32 record.type.code).blob record.payload limits.kMaxJournalRecordBytes) writer
  ⟨.Transaction, writer.buffer⟩

/-- The body of the transaction decoder: `count` inner records. -/
def decode_inner_records : Nat → ByteReader → Result (List Record × ByteReader)
  | 0, reader => .ok ([], reader)
  | count + 1, reader =>
      let (type, reader) := reader.u32
      if is_known_record_type (type % 65536) = false ∨ type = RecordType.Transaction.code then
        .error (make_error .CorruptState (text "transaction contains an unusable record type"))
      else
        let (payload, reader) := reader.blob limits.kMaxJournalRecordBytes
        if reader.ok = false then
          .error (make_error .CorruptState (text "transaction record is malformed"))
        else
          match decode_inner_records count reader with
          | .error e => .error e
          | .ok (rest, reader) => .ok (⟨RecordType.ofCode (type % 65536), payload⟩ :: rest, reader)

def decode_transaction_record (record : Record) : Result (List Record) :=
  if record.type ≠ .Transaction then
    .error (invalid_argument (text "record is not a transaction record"))
  else
    match check_layout { data := record.payload } kTransactionLayout (text "transaction") with
    | (.error e, _) => .error e
    | (.ok (), reader) =>
        let (count, reader) := reader.u32
        if reader.ok = false ∨ count = 0 ∨ count > limits.kMaxRecordsPerTransaction then
          .error (make_error .CorruptState (text "transaction record count is out of range"))
        else
          match decode_inner_records count reader with
          | .error e => .error e
          | .ok (out, reader) =>
              if reader.at_end = false then
                .error (make_error .CorruptState (text "transaction record has trailing bytes"))
              else .ok out

/-! ### Round trip -/

/-- One inner record as the encoder lays it out. -/
def inner_bytes (record : Record) : Text :=
  u32Bytes record.type.code ++ (u32Bytes record.payload.length ++ record.payload)

theorem encode_records_buffer {records : List Record}
    (h : ∀ r ∈ records, r.writable = true) (w : ByteWriter) :
    (records.foldl (fun (w : ByteWriter) record =>
      (w.u32 record.type.code).blob record.payload limits.kMaxJournalRecordBytes) w).buffer =
      w.buffer ++ records.flatMap inner_bytes := by
  induction records generalizing w with
  | nil => simp
  | cons r rs ih =>
    have hr := (Record.writable_iff.mp (h r (by simp))).2
    rw [List.foldl_cons, ih (fun x hx => h x (by simp [hx])),
      ByteWriter.blob_buffer _ hr (by decide)]
    simp [inner_bytes]

theorem encode_transaction_payload {records : List Record}
    (h : ∀ r ∈ records, r.writable = true) :
    (encode_transaction_record records).payload =
      u16Bytes kTransactionLayout ++ (u32Bytes records.length ++ records.flatMap inner_bytes) := by
  simp [encode_transaction_record, encode_records_buffer h]

theorem decode_inner_records_inner_bytes {records : List Record} {bs : Text} {r : ByteReader}
    (h : ∀ x ∈ records, x.writable = true ∧ x.type ≠ .Transaction)
    (ha : r.Ahead (records.flatMap inner_bytes ++ bs)) :
    ∃ r', decode_inner_records records.length r = .ok (records, r') ∧ r'.Ahead bs := by
  induction records generalizing r with
  | nil => exact ⟨r, rfl, by simpa using ha⟩
  | cons x xs ih =>
    obtain ⟨hw, hne⟩ := h x (by simp)
    obtain ⟨hknown, hsize⟩ := Record.writable_iff.mp hw
    have hlt := x.type.code_lt
    have hmod : x.type.code % 4294967296 = x.type.code := Nat.mod_eq_of_lt (by omega)
    have hmod' : x.type.code % 65536 = x.type.code := Nat.mod_eq_of_lt hlt
    have hwidth : limits.kMaxJournalRecordBytes < 4294967296 := by decide
    have ha' : r.Ahead (u32Bytes x.type.code ++ (u32Bytes x.payload.length ++
        (x.payload ++ (xs.flatMap inner_bytes ++ bs)))) := by
      simpa [inner_bytes] using ha
    obtain ⟨h1, a1⟩ := ha'.u32
    obtain ⟨h2, a2⟩ := a1.blob hsize (by omega)
    obtain ⟨r', h3, a3⟩ := ih (fun y hy => h y (by simp [hy])) a2
    refine ⟨r', ?_, a3⟩
    have htype : ¬(is_known_record_type x.type.code = false ∨
        x.type.code = RecordType.Transaction.code) := by
      rintro (hk | hk)
      · simp [hknown] at hk
      · exact hne (by rw [← RecordType.ofCode_code x.type, hk, RecordType.ofCode_code])
    simp only [decode_inner_records, List.length_cons, h1, hmod, hmod', if_neg htype, h2, a2.ok,
      h3, RecordType.ofCode_code]
    rfl

/-- The readings a transaction record is accepted with. -/
theorem decode_transaction_record_of {record : Record} {reader r1 r2 : ByteReader} {count : Nat}
    {out : List Record} (htype : record.type = .Transaction)
    (hlayout : check_layout { data := record.payload } kTransactionLayout (text "transaction") =
      (ok_status, reader))
    (hcount : reader.u32 = (count, r1))
    (hrange : ¬(r1.ok = false ∨ count = 0 ∨ count > limits.kMaxRecordsPerTransaction))
    (hinner : decode_inner_records count r1 = .ok (out, r2)) (hend : r2.at_end = true) :
    decode_transaction_record record = .ok out := by
  rw [decode_transaction_record, if_neg (not_not.mpr htype)]
  split
  · next e _ hrefused => cases hlayout.symm.trans hrefused
  · next reader' hread =>
    obtain rfl : reader = reader' := (Prod.mk.inj (hlayout.symm.trans hread)).2
    generalize reader.u32 = x at hcount
    subst hcount
    simp only [if_neg hrange, hinner, hend]
    rfl

/-- A transaction of one to `kMaxRecordsPerTransaction` ordinary records reads back as
    written. -/
theorem decode_encode_transaction {records : List Record}
    (h : ∀ x ∈ records, x.writable = true ∧ x.type ≠ .Transaction)
    (hne : records ≠ []) (hlen : records.length ≤ limits.kMaxRecordsPerTransaction) :
    decode_transaction_record (encode_transaction_record records) = .ok records := by
  have hlen' : records.length ≤ 512 := hlen
  have hpay := encode_transaction_payload (fun r hr => (h r hr).1)
  have a0 := ByteReader.Ahead.start (encode_transaction_record records).payload
  nth_rewrite 2 [hpay] at a0
  obtain ⟨h1, a1⟩ := a0.u16
  obtain ⟨h2, a2⟩ := a1.u32
  rw [← List.append_nil (records.flatMap inner_bytes)] at a2
  obtain ⟨r', h3, a3⟩ := decode_inner_records_inner_bytes h a2
  have hmod : records.length % 4294967296 = records.length := Nat.mod_eq_of_lt (by omega)
  have hend : r'.at_end = true := a3.at_end_iff.mpr rfl
  have htype : (encode_transaction_record records).type = .Transaction := rfl
  have hlayout : check_layout { data := (encode_transaction_record records).payload }
      kTransactionLayout (text "transaction") =
      (ok_status, ByteReader.skip { data := (encode_transaction_record records).payload } 2) := by
    simp [check_layout, h1, a1.ok, kTransactionLayout]
  rw [hmod] at h2
  exact decode_transaction_record_of htype hlayout h2
    (by rw [a2.ok]; simp [hne, Nat.not_lt.mpr hlen]) h3 hend

end MaintenanceFabric
