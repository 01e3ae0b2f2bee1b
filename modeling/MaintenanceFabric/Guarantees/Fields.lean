import MaintenanceFabric.Core.Bytes

/-! # Sequences of fields

    Every codec is a sequence of typed fields.  What a writer put down, a
    reader of the same types takes up again.  Whatever the bytes are, a reader
    stays inside them, and once it has failed it does not move.
-/

namespace MaintenanceFabric

/-! ## Fields -/

/-- A kind of field; strings and blobs come with their cap. -/
inductive FieldType where
  | u8 | u16 | u32 | u64 | i64 | boolean
  | str (max_length : Nat)
  | blob (max_length : Nat)

/-- A value, and the cap it is written under. -/
inductive Field where
  | u8 (value : UInt8)
  | u16 (value : UInt16)
  | u32 (value : UInt32)
  | u64 (value : UInt64)
  | i64 (value : Int64)
  | boolean (value : Bool)
  | str (value : Text) (max_length : Nat)
  | blob (data : Text) (max_length : Nat)

namespace Field

def type : Field → FieldType
  | .u8 _ => .u8
  | .u16 _ => .u16
  | .u32 _ => .u32
  | .u64 _ => .u64
  | .i64 _ => .i64
  | .boolean _ => .boolean
  | .str _ max_length => .str max_length
  | .blob _ max_length => .blob max_length

/-- Is the field within its cap, and its length within the width of the length prefix? -/
def within_cap : Field → Prop
  | .str value max_length => value.length ≤ max_length ∧ value.length ≤ 65535
  | .blob data max_length => data.length ≤ max_length ∧ data.length ≤ 4294967295
  | _ => True

def write (w : ByteWriter) : Field → ByteWriter
  | .u8 value => w.u8 value.toNat
  | .u16 value => w.u16 value.toNat
  | .u32 value => w.u32 value.toNat
  | .u64 value => w.u64 value.toNat
  | .i64 value => w.i64 value.toInt
  | .boolean value => w.boolean value
  | .str value max_length => w.str value max_length
  | .blob data max_length => w.blob data max_length

/-- The bytes of a field within its cap. -/
def bytes : Field → Text
  | .u8 value => [value]
  | .u16 value => u16Bytes value.toNat
  | .u32 value => u32Bytes value.toNat
  | .u64 value => u64Bytes value.toNat
  | .i64 value => i64Bytes value.toInt
  | .boolean value => boolBytes value
  | .str value _ => u16Bytes value.length ++ value
  | .blob data _ => u32Bytes data.length ++ data

theorem write_within {f : Field} (h : f.within_cap) (w : ByteWriter) :
    (f.write w).buffer = w.buffer ++ f.bytes ∧ (f.write w).overflowed = w.overflowed := by
  cases f with
  | u8 value => simp [write, bytes, ByteWriter.u8]
  | str value max_length =>
    obtain ⟨hcap, hwidth⟩ := h
    have hfit : ¬ (value.length > max_length ∨ value.length > 65535) := by omega
    rw [write, ByteWriter.str, if_neg hfit]
    exact ⟨by simp [bytes], rfl⟩
  | blob data max_length =>
    obtain ⟨hcap, hwidth⟩ := h
    have hfit : ¬ (data.length > max_length ∨ data.length > 4294967295) := by omega
    rw [write, ByteWriter.blob, if_neg hfit]
    exact ⟨by simp [bytes], rfl⟩
  | _ => exact ⟨by simp [write, bytes], rfl⟩

end Field

namespace FieldType

/-- Read one field. -/
def read (r : ByteReader) : FieldType → Field × ByteReader
  | .u8 => let (value, r) := r.u8; (.u8 (UInt8.ofNat value), r)
  | .u16 => let (value, r) := r.u16; (.u16 (UInt16.ofNat value), r)
  | .u32 => let (value, r) := r.u32; (.u32 (UInt32.ofNat value), r)
  | .u64 => let (value, r) := r.u64; (.u64 (UInt64.ofNat value), r)
  | .i64 => let (value, r) := r.i64; (.i64 (Int64.ofInt value), r)
  | .boolean => let (value, r) := r.boolean; (.boolean value, r)
  | .str max_length => let (value, r) := r.str max_length; (.str value max_length, r)
  | .blob max_length => let (data, r) := r.blob max_length; (.blob data max_length, r)

end FieldType

def write_all (fields : List Field) : ByteWriter := fields.foldl Field.write {}

def read_all : List FieldType → ByteReader → List Field × ByteReader
  | [], r => ([], r)
  | type :: types, r =>
      let (field, r) := type.read r
      let (fields, r) := read_all types r
      (field :: fields, r)

/-! ## What was written is read -/

namespace ByteReader.Ahead

variable {r : ByteReader} {bs : Text}

theorem field {f : Field} (hcap : f.within_cap) (h : Ahead r (f.bytes ++ bs)) :
    (f.type.read r).1 = f ∧ Ahead (f.type.read r).2 bs := by
  cases f with
  | u8 value =>
    obtain ⟨hread, hrest⟩ := Ahead.u8 (by simpa [Field.bytes] using h)
    simp only [Field.type, FieldType.read, hread]
    exact ⟨by simp, hrest⟩
  | u16 value =>
    obtain ⟨hread, hrest⟩ := h.u16
    simp only [Field.type, FieldType.read, hread]
    exact ⟨by simp, hrest⟩
  | u32 value =>
    obtain ⟨hread, hrest⟩ := h.u32
    simp only [Field.type, FieldType.read, hread]
    exact ⟨by simp, hrest⟩
  | u64 value =>
    obtain ⟨hread, hrest⟩ := h.u64
    have hwrap : UInt64.ofNat (value.toNat % 18446744073709551616) = value := by
      rw [Nat.mod_eq_of_lt value.toNat_lt, UInt64.ofNat_toNat]
    rw [Field.type, FieldType.read, hread]
    exact ⟨congrArg Field.u64 hwrap, hrest⟩
  | i64 value =>
    have hlow := value.le_toInt
    have hhigh := value.toInt_lt
    obtain ⟨hread, hrest⟩ := h.i64 ⟨by omega, by omega⟩
    simp only [Field.type, FieldType.read, hread]
    exact ⟨by simp, hrest⟩
  | boolean value =>
    obtain ⟨hread, hrest⟩ := h.boolean
    simp only [Field.type, FieldType.read, hread]
    exact ⟨trivial, hrest⟩
  | str value max_length =>
    rw [Field.bytes, List.append_assoc] at h
    obtain ⟨hread, hrest⟩ := h.text hcap.1 (by have := hcap.2; omega)
    simp only [Field.type, FieldType.read, hread]
    exact ⟨trivial, hrest⟩
  | blob data max_length =>
    rw [Field.bytes, List.append_assoc] at h
    obtain ⟨hread, hrest⟩ := h.blob hcap.1 (by have := hcap.2; omega)
    simp only [Field.type, FieldType.read, hread]
    exact ⟨trivial, hrest⟩

end ByteReader.Ahead

theorem write_all_within {fields : List Field} (h : ∀ f ∈ fields, f.within_cap) (w : ByteWriter) :
    (fields.foldl Field.write w).buffer = w.buffer ++ fields.flatMap Field.bytes ∧
      (fields.foldl Field.write w).overflowed = w.overflowed := by
  induction fields generalizing w with
  | nil => simp
  | cons f fields ih =>
    obtain ⟨hbuffer, hflag⟩ := Field.write_within (h f List.mem_cons_self) w
    obtain ⟨hbuffers, hflags⟩ := ih (fun g hg => h g (List.mem_cons_of_mem f hg)) (f.write w)
    rw [List.foldl_cons, hbuffers, hflags, hbuffer, hflag]
    simp

theorem read_all_ahead {fields : List Field} (h : ∀ f ∈ fields, f.within_cap) {r : ByteReader}
    {bs : Text} (ahead : r.Ahead (fields.flatMap Field.bytes ++ bs)) :
    (read_all (fields.map Field.type) r).1 = fields ∧
      (read_all (fields.map Field.type) r).2.Ahead bs := by
  induction fields generalizing r with
  | nil =>
    rw [List.flatMap_nil, List.nil_append] at ahead
    exact ⟨rfl, ahead⟩
  | cons f fields ih =>
    rw [List.flatMap_cons, List.append_assoc] at ahead
    obtain ⟨hfirst, hrest⟩ := ahead.field (h f List.mem_cons_self)
    obtain ⟨hfields, hend⟩ := ih (fun g hg => h g (List.mem_cons_of_mem f hg)) hrest
    simp only [List.map_cons, read_all]
    exact ⟨by rw [hfirst, hfields], hend⟩

/-! ## Whatever the bytes are -/

namespace ByteReader

/-- What every read does to a reader: the buffer stays, the offset stays inside it, and after a
    failure nothing changes any more. -/
structure Advances (r r' : ByteReader) : Prop where
  data : r'.data = r.data
  inside : r.offset ≤ r.data.length → r'.offset ≤ r'.data.length
  onward : r.offset ≤ r'.offset
  dead : r.ok = false → r' = r

namespace Advances

variable {r r' r'' : ByteReader}

theorem refl (r : ByteReader) : Advances r r := ⟨rfl, id, le_refl _, fun _ => rfl⟩

theorem trans (h : Advances r r') (h' : Advances r' r'') : Advances r r'' := by
  refine ⟨h'.data.trans h.data, fun hinside => h'.inside (h.inside hinside),
    h.onward.trans h'.onward, ?_⟩
  intro hdead
  obtain rfl := h.dead hdead
  exact h'.dead hdead

/-- A reader that fails now. -/
theorem failed (r : ByteReader) (halive : r.ok = true) : Advances r { r with ok := false } := by
  refine ⟨rfl, id, le_refl _, ?_⟩
  intro hdead
  rw [halive] at hdead
  cases hdead

end Advances

/-- The three ways `need` can go. -/
theorem need_cases (r : ByteReader) (count : Nat) :
    (r.ok = false ∧ r.need count = (false, r)) ∨
    (r.ok = true ∧ r.data.length - r.offset < count ∧
      r.need count = (false, { r with ok := false })) ∨
    (r.ok = true ∧ count ≤ r.data.length - r.offset ∧ r.need count = (true, r)) := by
  unfold need
  by_cases hok : r.ok = false
  · exact .inl ⟨hok, if_pos hok⟩
  · have halive : r.ok = true := by simpa using hok
    rw [if_neg hok]
    by_cases hfit : count > r.data.length - r.offset
    · exact .inr (.inl ⟨halive, hfit, if_pos hfit⟩)
    · exact .inr (.inr ⟨halive, by omega, if_neg hfit⟩)

/-- Taking bytes that are there. -/
theorem Advances.skip {r : ByteReader} {count : Nat} (halive : r.ok = true)
    (hfit : count ≤ r.data.length - r.offset) : Advances r (r.skip count) := by
  refine ⟨rfl, ?_, Nat.le_add_right _ _, ?_⟩
  · intro hinside
    simp only [ByteReader.skip]
    omega
  · intro hdead
    rw [halive] at hdead
    cases hdead

theorem advances_u8 (r : ByteReader) : Advances r r.u8.2 := by
  unfold u8
  rcases r.need_cases 1 with ⟨_, hneed⟩ | ⟨halive, _, hneed⟩ | ⟨halive, hfit, hneed⟩ <;> rw [hneed]
  · exact .refl r
  · exact .failed r halive
  · exact .skip halive hfit

theorem advances_u16 (r : ByteReader) : Advances r r.u16.2 :=
  (advances_u8 r).trans (advances_u8 r.u8.2)

theorem advances_u32 (r : ByteReader) : Advances r r.u32.2 :=
  (advances_u16 r).trans (advances_u16 r.u16.2)

theorem advances_u64 (r : ByteReader) : Advances r r.u64.2 :=
  (advances_u32 r).trans (advances_u32 r.u32.2)

/-- What a length-prefixed read yields: bytes of the buffer, at most the cap of them. -/
structure Yields (r : ByteReader) (max_length : Nat) (out : Text × ByteReader) : Prop where
  advances : Advances r out.2
  bounded : out.1.length ≤ max_length
  piece : out.1 <:+: r.data
  /-- On success they are the bytes just consumed. -/
  consumed : out.2.ok = true → out.1 = (r.data.take out.2.offset).drop (out.2.offset - out.1.length)

/-- A read of `length` bytes behind a length prefix that left `r'`. -/
theorem Yields.behind {r r' : ByteReader} {max_length length : Nat} (h : Advances r r') :
    Yields r max_length (if r'.ok = false ∨ length > max_length then ([], { r' with ok := false })
      else match r'.need length with
        | (false, r) => ([], r)
        | (true, r) => ((r.data.drop r.offset).take length,
            { r with offset := r.offset + length })) := by
  -- A refusal yields nothing, and the reader has failed from then on.
  have hnone : ∀ r'' : ByteReader, Advances r' r'' → r''.ok = false →
      Yields r max_length (([] : Text), r'') := by
    intro r'' h'' hfailed
    refine ⟨h.trans h'', Nat.zero_le _, List.nil_infix, ?_⟩
    intro hok
    rw [hfailed] at hok
    cases hok
  by_cases hrefused : r'.ok = false ∨ length > max_length
  · rw [if_pos hrefused]
    refine hnone _ ?_ rfl
    by_cases hok : r'.ok = false
    · rw [show ({ r' with ok := false } : ByteReader) = r' by rw [← hok]]
      exact .refl r'
    · exact .failed r' (by simpa using hok)
  · rw [if_neg hrefused]
    rw [not_or] at hrefused
    rcases r'.need_cases length with ⟨hdead, _⟩ | ⟨halive, _, hneed⟩ | ⟨halive, hfit, hneed⟩
    · exact absurd hdead hrefused.1
    · rw [hneed]
      exact hnone _ (.failed r' halive) rfl
    · rw [hneed]
      have hlength : ((r'.data.drop r'.offset).take length).length = length := by
        rw [List.length_take, List.length_drop]
        omega
      refine ⟨h.trans (.skip halive hfit), ?_, ?_, ?_⟩
      · rw [hlength]
        omega
      · rw [← h.data]
        exact (List.take_prefix _ _).isInfix.trans (List.drop_suffix _ _).isInfix
      · intro _
        simp only [hlength, ← h.data]
        rw [List.drop_take, Nat.add_sub_cancel, Nat.add_sub_cancel_left]

theorem yields_str (r : ByteReader) (max_length : Nat) : Yields r max_length (r.str max_length) :=
  .behind (advances_u16 r)

theorem yields_blob (r : ByteReader) (max_length : Nat) : Yields r max_length (r.blob max_length) :=
  .behind (advances_u32 r)

theorem advances_raw (r : ByteReader) (size : Nat) : Advances r (r.raw size).2 := by
  unfold raw
  split
  · exact .refl r
  · rcases r.need_cases size with ⟨_, hneed⟩ | ⟨halive, _, hneed⟩ | ⟨halive, hfit, hneed⟩ <;>
      rw [hneed]
    · exact .refl r
    · exact .failed r halive
    · exact .skip halive hfit

end ByteReader

/-- One call of a reader. -/
inductive Read where
  | field (type : FieldType)
  | raw (size : Nat)

/-- The reader after the call. -/
def Read.step (r : ByteReader) : Read → ByteReader
  | .field type => (type.read r).2
  | .raw size => (r.raw size).2

theorem FieldType.advances (type : FieldType) (r : ByteReader) : r.Advances (type.read r).2 := by
  cases type with
  | u8 => exact r.advances_u8
  | u16 => exact r.advances_u16
  | u32 => exact r.advances_u32
  | u64 => exact r.advances_u64
  | i64 => exact r.advances_u64
  | boolean => exact r.advances_u8
  | str max_length => exact (r.yields_str max_length).advances
  | blob max_length => exact (r.yields_blob max_length).advances

theorem Read.advances (read : Read) (r : ByteReader) : r.Advances (read.step r) := by
  cases read with
  | field type => exact type.advances r
  | raw size => exact r.advances_raw size

theorem advances_reads (reads : List Read) (r : ByteReader) :
    r.Advances (reads.foldl Read.step r) := by
  induction reads generalizing r with
  | nil => exact .refl r
  | cons read reads ih => exact (read.advances r).trans (ih (read.step r))

/-- Fields within their caps read back in order, to the end of what was written.  On any bytes, no
    sequence of reads leaves the buffer, a failed reader stands still, and strings and blobs are
    pieces of the buffer within their caps. -/
theorem byte_fields :
    (∀ fields : List Field, (∀ f ∈ fields, f.within_cap) →
      (write_all fields).overflowed = false ∧
      (read_all (fields.map Field.type) { data := (write_all fields).buffer }).1 = fields ∧
      (read_all (fields.map Field.type) { data := (write_all fields).buffer }).2.ok = true ∧
      (read_all (fields.map Field.type) { data := (write_all fields).buffer }).2.at_end = true) ∧
    (∀ (data : Text) (reads : List Read), let r := reads.foldl Read.step { data }
      r.data = data ∧ r.offset ≤ data.length ∧
      (r.ok = false → ∀ more : List Read, more.foldl Read.step r = r) ∧
      ∀ max_length, r.Yields max_length (r.str max_length) ∧
        r.Yields max_length (r.blob max_length)) := by
  constructor
  · intro fields hcaps
    obtain ⟨hbuffer, hflag⟩ := write_all_within hcaps {}
    have hbytes : (write_all fields).buffer = fields.flatMap Field.bytes := by
      rw [write_all, hbuffer]
      exact List.nil_append _
    have ahead : ({ data := (write_all fields).buffer } : ByteReader).Ahead
        (fields.flatMap Field.bytes ++ []) := by
      rw [hbytes, List.append_nil]
      exact .start _
    obtain ⟨hfields, hend⟩ := read_all_ahead hcaps ahead
    exact ⟨hflag, hfields, hend.ok, hend.at_end_iff.mpr rfl⟩
  · intro data reads r
    have h := advances_reads reads { data }
    refine ⟨h.data, ?_, ?_, fun max_length => ⟨r.yields_str max_length, r.yields_blob max_length⟩⟩
    · rw [show data.length = r.data.length from congrArg List.length h.data.symm]
      exact h.inside (Nat.zero_le _)
    · intro hfailed more
      exact (advances_reads more r).dead hfailed

end MaintenanceFabric
