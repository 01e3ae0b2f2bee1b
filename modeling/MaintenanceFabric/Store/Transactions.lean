import MaintenanceFabric.Store.Journal

/-! # Transactions on the wire

    The encoder writes the type of an inner record in 32 bits; the decoder
    checks the low 16 of them against the known types and all 32 against the
    transaction type.  `Laid` lists the inner records of an acceptable payload
    as they stand there, with the whole type field.
-/

namespace MaintenanceFabric

/-! ## Payloads the decoder accepts -/

/-- One inner record as the payload has it: the 32-bit type field and the bytes. -/
structure InnerField where
  type : Nat
  payload : Text

namespace InnerField

def bytes (f : InnerField) : Text := u32Bytes f.type ++ (u32Bytes f.payload.length ++ f.payload)

/-- The record the decoder makes of the field. -/
def record (f : InnerField) : Record := ⟨RecordType.ofCode (f.type % 65536), f.payload⟩

/-- The checks of the decoder on one inner record. -/
structure Usable (f : InnerField) : Prop where
  width : f.type < 4294967296
  known : is_known_record_type (f.type % 65536) = true
  ordinary : f.type ≠ RecordType.Transaction.code
  size : f.payload.length ≤ limits.kMaxJournalRecordBytes

end InnerField

/-- The payload is a transaction of the given inner records, each one usable. -/
structure Laid (fields : List InnerField) (payload : Text) : Prop where
  payload : payload = u16Bytes kTransactionLayout ++
    (u32Bytes fields.length ++ fields.flatMap InnerField.bytes)
  some_record : fields ≠ []
  count : fields.length ≤ limits.kMaxRecordsPerTransaction
  usable : ∀ f ∈ fields, f.Usable

theorem decode_inner_records_fields {fields : List InnerField} {bs : Text} {r : ByteReader}
    (h : ∀ f ∈ fields, f.Usable) (ha : r.Ahead (fields.flatMap InnerField.bytes ++ bs)) :
    ∃ r', decode_inner_records fields.length r = .ok (fields.map InnerField.record, r') ∧
      r'.Ahead bs := by
  induction fields generalizing r with
  | nil => exact ⟨r, rfl, by simpa using ha⟩
  | cons f fs ih =>
    have hf := h f List.mem_cons_self
    have hwidth : limits.kMaxJournalRecordBytes < 4294967296 := by decide
    have ha' : r.Ahead (u32Bytes f.type ++ (u32Bytes f.payload.length ++
        (f.payload ++ (fs.flatMap InnerField.bytes ++ bs)))) := by
      simpa [InnerField.bytes] using ha
    obtain ⟨h1, a1⟩ := ha'.u32
    obtain ⟨h2, a2⟩ := a1.blob hf.size (Nat.lt_of_le_of_lt hf.size hwidth)
    obtain ⟨r', h3, a3⟩ := ih (fun x hx => h x (List.mem_cons_of_mem _ hx)) a2
    refine ⟨r', ?_, a3⟩
    have hgood : ¬(is_known_record_type (f.type % 65536) = false ∨
        f.type = RecordType.Transaction.code) := by
      rintro (hk | hk)
      · simp [hf.known] at hk
      · exact hf.ordinary hk
    simp only [decode_inner_records, List.length_cons, h1, Nat.mod_eq_of_lt hf.width,
      if_neg hgood, h2, a2.ok, h3]
    rfl

theorem decode_inner_records_ok {count : Nat} {r r' : ByteReader} {bs : Text} {out : List Record}
    (ha : r.Ahead bs) (h : decode_inner_records count r = .ok (out, r')) :
    ∃ (fields : List InnerField) (rest : Text),
      fields.length = count ∧ bs = fields.flatMap InnerField.bytes ++ rest ∧
      r'.Ahead rest ∧ (∀ f ∈ fields, f.Usable) ∧ out = fields.map InnerField.record := by
  induction count generalizing r bs out with
  | zero =>
    cases h
    exact ⟨[], bs, rfl, rfl, ha, by simp, rfl⟩
  | succ count ih =>
    simp only [decode_inner_records] at h
    split at h
    · cases h
    · next hgood =>
      split at h
      · cases h
      · next hblob =>
        have hok2 : (r.u32.2.blob limits.kMaxJournalRecordBytes).2.ok = true := by
          simpa using hblob
        -- A blob that was read leaves a reader that had read the type before it as well.
        have hok1 := ByteReader.blob_ok hok2
        obtain ⟨type, rest, hwidth, rfl⟩ := ha.u32_inv hok1
        obtain ⟨h1, a1⟩ := ha.u32
        rw [Nat.mod_eq_of_lt hwidth] at h1
        rw [h1] at hgood hok2 h
        obtain ⟨payload, rest, hsize, hlen, rfl⟩ := a1.blob_inv hok2
        obtain ⟨h2, a2⟩ := a1.blob hsize hlen
        rw [h2] at h
        simp only at h
        split at h
        · cases h
        · next hrest =>
          cases h
          obtain ⟨fields, rest, hcount, rfl, a3, husable, rfl⟩ := ih a2 hrest
          rw [not_or, Bool.not_eq_false] at hgood
          refine ⟨⟨type, payload⟩ :: fields, rest, by simp [hcount], ?_, a3, ?_, rfl⟩
          · simp [InnerField.bytes]
          · intro f hf
            rcases List.mem_cons.mp hf with rfl | hf
            · exact ⟨hwidth, hgood.1, hgood.2, hsize⟩
            · exact husable f hf

theorem check_layout_ok {r r' : ByteReader} {expected : Nat} {what bs : Text} (ha : r.Ahead bs)
    (h : check_layout r expected what = (.ok (), r')) :
    ∃ rest, bs = u16Bytes expected ++ rest ∧ r'.Ahead rest := by
  simp only [check_layout] at h
  split at h
  · cases h
  · next hok =>
    split at h
    · cases h
    · next hversion =>
      rw [Prod.mk.injEq] at h
      obtain ⟨layout, rest, hwidth, rfl⟩ := ha.u16_inv (by simpa using hok)
      obtain ⟨h1, a1⟩ := ha.u16
      rw [h1, Nat.mod_eq_of_lt hwidth] at hversion
      rw [h1] at h
      obtain rfl : layout = expected := by simpa using hversion
      exact ⟨rest, rfl, h.2 ▸ a1⟩

/-- What the decoder accepts, and what it makes of it. -/
theorem decode_transaction_record_ok {record : Record} {out : List Record}
    (h : decode_transaction_record record = .ok out) :
    record.type = .Transaction ∧
      ∃ fields, Laid fields record.payload ∧ out = fields.map InnerField.record := by
  rw [decode_transaction_record] at h
  split at h
  · cases h
  · next htype =>
    refine ⟨by simpa using htype, ?_⟩
    split at h
    · cases h
    · next reader hlayout =>
      obtain ⟨rest, hpayload, a1⟩ := check_layout_ok (.start record.payload) hlayout
      -- The count is what was written only if the reader went through, which is asked next.
      have hinv := @ByteReader.Ahead.u32_inv reader rest a1
      generalize hread : reader.u32 = x at h hinv
      obtain ⟨count, r1⟩ := x
      simp only at h hinv
      split at h
      · cases h
      · next hcount =>
        have hok : r1.ok = true := by
          by_contra hno
          exact hcount (.inl (by simpa using hno))
        obtain ⟨count, rest, hwidth, rfl⟩ := hinv hok
        obtain ⟨h2, a2⟩ := a1.u32
        rw [hread, Nat.mod_eq_of_lt hwidth] at h2
        obtain ⟨rfl, rfl⟩ := Prod.mk.inj h2
        split at h
        · cases h
        · next hinner =>
          split at h
          · cases h
          · next hend =>
            cases h
            obtain ⟨fields, rest, rfl, rfl, a3, husable, rfl⟩ := decode_inner_records_ok a2 hinner
            have hnil : rest = [] := a3.at_end_iff.mp (by simpa using hend)
            rw [not_or, not_or] at hcount
            refine ⟨fields, ⟨?_, ?_, by omega, husable⟩, rfl⟩
            · rw [hpayload, hnil, List.append_nil]
            · intro hempty
              rw [hempty] at hcount
              exact hcount.2.1 rfl

theorem decode_laid {record : Record} {fields : List InnerField}
    (htype : record.type = .Transaction)
    (h : Laid fields record.payload) :
    decode_transaction_record record = .ok (fields.map InnerField.record) := by
  have hcount : fields.length ≤ 512 := h.count
  have a0 := ByteReader.Ahead.start record.payload
  nth_rewrite 2 [h.payload] at a0
  obtain ⟨h1, a1⟩ := a0.u16
  obtain ⟨h2, a2⟩ := a1.u32
  rw [← List.append_nil (fields.flatMap InnerField.bytes)] at a2
  obtain ⟨r', h3, a3⟩ := decode_inner_records_fields h.usable a2
  have hmod : fields.length % 4294967296 = fields.length := Nat.mod_eq_of_lt (by omega)
  have hend : r'.at_end = true := a3.at_end_iff.mpr rfl
  have hlayout : check_layout { data := record.payload } kTransactionLayout (text "transaction") =
      (ok_status, ByteReader.skip { data := record.payload } 2) := by
    simp [check_layout, h1, a1.ok, kTransactionLayout]
  rw [hmod] at h2
  exact decode_transaction_record_of htype hlayout h2
    (by rw [a2.ok]; simp [h.some_record, Nat.not_lt.mpr h.count]) h3 hend

/-! ## Encoding again -/

theorem RecordType.code_ofCode {tag : Nat} (h : is_known_record_type tag = true) :
    (RecordType.ofCode tag).code = tag := by
  have hall : ∀ n < 15, is_known_record_type n = true → (RecordType.ofCode n).code = n := by decide
  refine hall tag ?_ h
  simp only [is_known_record_type, Bool.and_eq_true, decide_eq_true_eq] at h
  omega

theorem u32Bytes_inj {v w : Nat} (hv : v < 4294967296) (hw : w < 4294967296) :
    u32Bytes v = u32Bytes w ↔ v = w := by
  constructor
  · intro h
    have hread := read_u32_le_u32Bytes v []
    rw [h, read_u32_le_u32Bytes, Nat.mod_eq_of_lt hv, Nat.mod_eq_of_lt hw] at hread
    exact hread.symm
  · rintro rfl
    rfl

namespace InnerField

/-- A type field without an upper half is the tag the encoder writes for the record. -/
theorem bytes_record {f : InnerField} (h : f.Usable) :
    inner_bytes f.record = f.bytes ↔ f.type < 65536 := by
  have hcode : f.record.type.code = f.type % 65536 := RecordType.code_ofCode h.known
  have hlow : f.type % 65536 < 65536 := Nat.mod_lt _ (by decide)
  simp only [inner_bytes, bytes, hcode]
  rw [show f.record.payload = f.payload from rfl, List.append_left_inj,
    u32Bytes_inj (by omega) h.width]
  omega

theorem inner_bytes_record_length (f : InnerField) :
    (inner_bytes f.record).length = f.bytes.length := by
  simp [inner_bytes, bytes, record]

theorem flatMap_bytes_record {fields : List InnerField} (h : ∀ f ∈ fields, f.Usable) :
    (fields.map record).flatMap inner_bytes = fields.flatMap bytes ↔
      ∀ f ∈ fields, f.type < 65536 := by
  induction fields with
  | nil => simp
  | cons f fs ih =>
    have hrest := ih (fun x hx => h x (List.mem_cons_of_mem _ hx))
    have hfirst := bytes_record (h f List.mem_cons_self)
    rw [List.map_cons, List.flatMap_cons, List.flatMap_cons, List.forall_mem_cons, ← hrest,
      ← hfirst]
    constructor
    · intro heq
      exact List.append_inj heq (inner_bytes_record_length f)
    · rintro ⟨h1, h2⟩
      rw [h1, h2]

theorem Usable.record_writable {f : InnerField} (h : f.Usable) : f.record.writable = true := by
  refine Record.writable_iff.mpr ⟨?_, h.size⟩
  rw [show f.record.type.code = f.type % 65536 from RecordType.code_ofCode h.known]
  exact h.known

end InnerField

theorem Laid.encode_payload {fields : List InnerField} {payload : Text} (h : Laid fields payload) :
    (encode_transaction_record (fields.map InnerField.record)).payload = payload ↔
      ∀ f ∈ fields, f.type < 65536 := by
  have hwritable : ∀ r ∈ fields.map InnerField.record, r.writable = true := by
    intro r hr
    obtain ⟨f, hf, rfl⟩ := List.mem_map.mp hr
    exact (h.usable f hf).record_writable
  rw [encode_transaction_payload hwritable, h.payload, List.length_map, List.append_cancel_left_eq,
    List.append_cancel_left_eq]
  exact InnerField.flatMap_bytes_record h.usable

/-- The encoder's transactions are read back.  And for any record: whatever the decoder accepts it
    takes for known ordinary records whose encoding is the payload, exactly when no acceptable
    inner record has a type field wider than 16 bits. -/
theorem transaction_image_iff (record : Record) :
    (∀ records : List Record,
      (∀ r ∈ records, r.writable = true ∧ r.type ≠ .Transaction) → records ≠ [] →
      records.length ≤ limits.kMaxRecordsPerTransaction →
      decode_transaction_record (encode_transaction_record records) = .ok records) ∧
    ((∀ out, decode_transaction_record record = .ok out →
        (∀ r ∈ out, is_known_record_type r.type.code = true ∧ r.type ≠ .Transaction) ∧
        encode_transaction_record out = record) ↔
      (record.type = .Transaction → ∀ fields, Laid fields record.payload →
        ∀ f ∈ fields, f.type < 65536)) := by
  refine ⟨fun records h hne hlen => decode_encode_transaction h hne hlen, ?_⟩
  constructor
  · intro h htype fields hlaid
    obtain ⟨-, hencode⟩ := h _ (decode_laid htype hlaid)
    exact hlaid.encode_payload.mp (congrArg Record.payload hencode)
  · intro h out hdecode
    obtain ⟨htype, fields, hlaid, rfl⟩ := decode_transaction_record_ok hdecode
    -- A type that fits into 16 bits is written back as it was.
    have hnarrow := h htype fields hlaid
    refine ⟨?_, ?_⟩
    · intro r hr
      obtain ⟨f, hf, rfl⟩ := List.mem_map.mp hr
      have husable := hlaid.usable f hf
      have hcode : f.record.type.code = f.type := by
        rw [show f.record.type.code = f.type % 65536 from RecordType.code_ofCode husable.known,
          Nat.mod_eq_of_lt (hnarrow f hf)]
      refine ⟨(Record.writable_iff.mp husable.record_writable).1, ?_⟩
      intro hnested
      rw [hnested] at hcode
      exact husable.ordinary hcode.symm
    · have hpayload := hlaid.encode_payload.mpr hnarrow
      obtain ⟨type, payload⟩ := record
      obtain rfl : type = .Transaction := htype
      exact congrArg (Record.mk .Transaction) hpayload

theorem two_records_read_back :
    decode_transaction_record (encode_transaction_record [⟨.Marker, [1]⟩, ⟨.JobErased, [2]⟩]) =
      .ok [⟨.Marker, [1]⟩, ⟨.JobErased, [2]⟩] :=
  (transaction_image_iff ⟨.Transaction, []⟩).1 _ (by decide) (by decide) (by decide)

/-- A transaction of one record without payload whose type field is `0x00010001`. -/
def nested_tag : Record := ⟨.Transaction, [0, 1, 0, 0, 0, 1, 0, 1, 0, 1, 0, 0, 0, 0]⟩

/-- It is accepted as a transaction inside a transaction, and not what the encoder writes for it. -/
theorem nested_tag_accepted :
    decode_transaction_record nested_tag = .ok [⟨.Transaction, []⟩] ∧
    encode_transaction_record [⟨.Transaction, []⟩] ≠ nested_tag := by
  have hlaid : Laid [⟨65537, []⟩] nested_tag.payload := by
    refine ⟨by decide, by simp, by decide, ?_⟩
    intro f hf
    obtain rfl := List.mem_singleton.mp hf
    exact ⟨by decide, by decide, by decide, Nat.zero_le _⟩
  refine ⟨decode_laid rfl hlaid, ?_⟩
  intro hsame
  have hnarrow := hlaid.encode_payload.mp (congrArg Record.payload hsame)
  exact absurd (hnarrow _ (List.mem_singleton.mpr rfl)) (by decide)

end MaintenanceFabric
