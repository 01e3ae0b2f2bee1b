import MaintenanceFabric.Core.Basic
import Mathlib.Tactic.Common

/-! # Bounded big-endian encoding

    `ByteWriter` and `ByteReader`, shared by the record codecs and the
    journal.  A writer appends; a reader walks an offset over a fixed
    buffer and latches `ok = false` at the first read past its end.

    `Ahead r bs` says that a healthy reader still has exactly the bytes
    `bs` in front of it.  Every round trip is one `Ahead` lemma per field
    type, chained.
-/

namespace MaintenanceFabric

/-! ## Fixed-width fields -/

/-- The two bytes of a 16-bit value, most significant first. -/
def u16Bytes (value : Nat) : Text := [UInt8.ofNat (value / 256), UInt8.ofNat value]

def u32Bytes (value : Nat) : Text := u16Bytes (value / 65536) ++ u16Bytes value

def u64Bytes (value : Nat) : Text := u32Bytes (value / 4294967296) ++ u32Bytes value

@[simp] theorem u16Bytes_length (v : Nat) : (u16Bytes v).length = 2 := rfl

@[simp] theorem u32Bytes_length (v : Nat) : (u32Bytes v).length = 4 := rfl

@[simp] theorem u64Bytes_length (v : Nat) : (u64Bytes v).length = 8 := rfl

/-- A signed value as its two's complement image. -/
def i64Bytes (value : Int) : Text := u64Bytes (value % 18446744073709551616).toNat

def boolBytes (value : Bool) : Text := [if value then 1 else 0]

@[simp] theorem i64Bytes_length (v : Int) : (i64Bytes v).length = 8 := rfl

@[simp] theorem boolBytes_length (v : Bool) : (boolBytes v).length = 1 := rfl

/-- `ByteWriter::str` writes a string over its bound as the empty string. -/
def clip (max_length : Nat) (t : Text) : Text := if t.length > max_length then [] else t

theorem clip_length_le (max_length : Nat) (t : Text) : (clip max_length t).length ≤ max_length := by
  unfold clip
  split
  · simp
  · omega

/-- A string within its bound is written as it is. -/
theorem clip_of_le {max_length : Nat} {t : Text} (h : t.length ≤ max_length) :
    clip max_length t = t := by
  unfold clip
  rw [if_neg (by omega)]

@[simp] theorem clip_clip (max_length : Nat) (t : Text) :
    clip max_length (clip max_length t) = clip max_length t :=
  clip_of_le (clip_length_le max_length t)

/-- A string field: its length in 16 bits, then its bytes. -/
def strBytes (max_length : Nat) (t : Text) : Text :=
  u16Bytes (clip max_length t).length ++ clip max_length t

theorem strBytes_length_le (max_length : Nat) (t : Text) :
    (strBytes max_length t).length ≤ 2 + max_length := by
  have := clip_length_le max_length t
  simp only [strBytes, List.length_append, u16Bytes_length]
  omega

/-- A blob field: its length in 32 bits, then its bytes. -/
def blobBytes (max_length : Nat) (data : Text) : Text :=
  u32Bytes (clip max_length data).length ++ clip max_length data

/-! ## Writer -/

structure ByteWriter where
  buffer : Text := []
  overflowed : Bool := false

namespace ByteWriter

def u8 (w : ByteWriter) (value : Nat) : ByteWriter :=
  { w with buffer := w.buffer ++ [UInt8.ofNat value] }

def u16 (w : ByteWriter) (value : Nat) : ByteWriter := (w.u8 (value / 256)).u8 value

def u32 (w : ByteWriter) (value : Nat) : ByteWriter := (w.u16 (value / 65536)).u16 value

def u64 (w : ByteWriter) (value : Nat) : ByteWriter := (w.u32 (value / 4294967296)).u32 value

def i64 (w : ByteWriter) (value : Int) : ByteWriter :=
  w.u64 (value % 18446744073709551616).toNat

def boolean (w : ByteWriter) (value : Bool) : ByteWriter := w.u8 (if value then 1 else 0)

def raw (w : ByteWriter) (data : Text) : ByteWriter := { w with buffer := w.buffer ++ data }

/-- Length-prefixed (u16) string. One that does not fit is written as the empty string and the
    writer remembers that it lost data. -/
def str (w : ByteWriter) (value : Text) (max_length : Nat) : ByteWriter :=
  if value.length > max_length ∨ value.length > 65535 then { w with overflowed := true }.u16 0
  else (w.u16 value.length).raw value

/-- Length-prefixed (u32) byte blob. One that does not fit is written as the empty blob and
    the writer remembers that it lost data. -/
def blob (w : ByteWriter) (data : Text) (max_length : Nat) : ByteWriter :=
  if data.length > max_length ∨ data.length > 4294967295 then
    { w with overflowed := true }.u32 0
  else (w.u32 data.length).raw data

@[simp] theorem u16_buffer (w : ByteWriter) (v : Nat) :
    (w.u16 v).buffer = w.buffer ++ u16Bytes v := by
  simp [u16, u8, u16Bytes]

@[simp] theorem u32_buffer (w : ByteWriter) (v : Nat) :
    (w.u32 v).buffer = w.buffer ++ u32Bytes v := by
  simp [u32, u32Bytes]

@[simp] theorem u64_buffer (w : ByteWriter) (v : Nat) :
    (w.u64 v).buffer = w.buffer ++ u64Bytes v := by
  simp [u64, u64Bytes]

@[simp] theorem i64_buffer (w : ByteWriter) (v : Int) :
    (w.i64 v).buffer = w.buffer ++ i64Bytes v := by
  simp [i64, i64Bytes]

@[simp] theorem boolean_buffer (w : ByteWriter) (v : Bool) :
    (w.boolean v).buffer = w.buffer ++ boolBytes v := by
  cases v <;> rfl

@[simp] theorem raw_buffer (w : ByteWriter) (data : Text) :
    (w.raw data).buffer = w.buffer ++ data := rfl

/-- Every string bound of the codecs fits the 16-bit length. -/
theorem str_buffer (w : ByteWriter) (t : Text) {max_length : Nat} (hm : max_length ≤ 65535) :
    (w.str t max_length).buffer = w.buffer ++ strBytes max_length t := by
  by_cases h : t.length > max_length
  · simp [str, strBytes, clip, h]
  · have hfit : ¬(t.length > max_length ∨ t.length > 65535) := by omega
    rw [str, if_neg hfit, strBytes, clip, if_neg h]
    simp

/-- A loop that appends the same kind of field for every element. -/
theorem foldl_buffer {α : Type} {f : ByteWriter → α → ByteWriter} {g : α → Text}
    (h : ∀ w a, (f w a).buffer = w.buffer ++ g a) (l : List α) (w : ByteWriter) :
    (l.foldl f w).buffer = w.buffer ++ l.flatMap g := by
  induction l generalizing w with
  | nil => simp
  | cons a l ih => simp [ih, h]

/-- A blob within its bound is written as its length followed by its bytes. -/
theorem blob_buffer (w : ByteWriter) {data : Text} {max_length : Nat}
    (h : data.length ≤ max_length) (hw : max_length < 4294967296) :
    (w.blob data max_length).buffer = w.buffer ++ (u32Bytes data.length ++ data) := by
  have hfit : ¬(data.length > max_length ∨ data.length > 4294967295) := by omega
  simp [blob, hfit]

/-- A blob is written clipped to its bound. -/
theorem blob_clipped (w : ByteWriter) (data : Text) {max_length : Nat}
    (hw : max_length < 4294967296) :
    (w.blob data max_length).buffer = w.buffer ++ blobBytes max_length data := by
  by_cases h : data.length > max_length
  · simp [blob, blobBytes, clip, h]
  · rw [blob_buffer w (Nat.not_lt.mp h) hw, blobBytes, clip_of_le (Nat.not_lt.mp h)]

end ByteWriter

/-! ## Reader -/

structure ByteReader where
  data : Text
  offset : Nat := 0
  ok : Bool := true

namespace ByteReader

def need (r : ByteReader) (count : Nat) : Bool × ByteReader :=
  if r.ok = false then (false, r)
  else if count > r.data.length - r.offset then (false, { r with ok := false })
  else (true, r)

def at_end (r : ByteReader) : Bool := r.ok && r.offset == r.data.length

def u8 (r : ByteReader) : Nat × ByteReader :=
  match r.need 1 with
  | (false, r) => (0, r)
  | (true, r) => ((r.data.getD r.offset 0).toNat, { r with offset := r.offset + 1 })

def u16 (r : ByteReader) : Nat × ByteReader :=
  let (hi, r) := r.u8
  let (lo, r) := r.u8
  (hi * 256 + lo, r)

def u32 (r : ByteReader) : Nat × ByteReader :=
  let (hi, r) := r.u16
  let (lo, r) := r.u16
  (hi * 65536 + lo, r)

def u64 (r : ByteReader) : Nat × ByteReader :=
  let (hi, r) := r.u32
  let (lo, r) := r.u32
  (hi * 4294967296 + lo, r)

/-- `static_cast<std::int64_t>` of a 64-bit value. -/
def signed (value : Nat) : Int :=
  if value < 9223372036854775808 then value else (value : Int) - 18446744073709551616

def i64 (r : ByteReader) : Int × ByteReader :=
  let (value, r) := r.u64
  (signed value, r)

def boolean (r : ByteReader) : Bool × ByteReader :=
  let (value, r) := r.u8
  (value != 0, r)

def str (r : ByteReader) (max_length : Nat) : Text × ByteReader :=
  let (length, r) := r.u16
  if r.ok = false ∨ length > max_length then ([], { r with ok := false })
  else
    match r.need length with
    | (false, r) => ([], r)
    | (true, r) => ((r.data.drop r.offset).take length, { r with offset := r.offset + length })

def blob (r : ByteReader) (max_length : Nat) : Text × ByteReader :=
  let (length, r) := r.u32
  if r.ok = false ∨ length > max_length then ([], { r with ok := false })
  else
    match r.need length with
    | (false, r) => ([], r)
    | (true, r) => ((r.data.drop r.offset).take length, { r with offset := r.offset + length })

/-- Copy `size` bytes out. A copy that does not fit is all zeros. -/
def raw (r : ByteReader) (size : Nat) : Text × ByteReader :=
  if size = 0 then ([], r)
  else
    match r.need size with
    | (false, r) => (List.replicate size 0, r)
    | (true, r) => ((r.data.drop r.offset).take size, { r with offset := r.offset + size })

/-- The reader after `n` more bytes. -/
def skip (r : ByteReader) (n : Nat) : ByteReader := { r with offset := r.offset + n }

/-- A healthy reader with exactly `bs` in front of it. -/
structure Ahead (r : ByteReader) (bs : Text) : Prop where
  ok : r.ok = true
  bound : r.offset ≤ r.data.length
  rest : r.data.drop r.offset = bs

theorem Ahead.start (bs : Text) : Ahead { data := bs } bs := ⟨rfl, Nat.zero_le _, rfl⟩

theorem Ahead.length {r : ByteReader} {bs : Text} (h : Ahead r bs) :
    r.offset + bs.length = r.data.length := by
  have := congrArg List.length h.rest
  simp only [List.length_drop] at this
  have := h.bound
  omega

theorem Ahead.at_end_iff {r : ByteReader} {bs : Text} (h : Ahead r bs) :
    r.at_end = true ↔ bs = [] := by
  have hl := h.length
  simp only [at_end, h.ok, Bool.true_and, beq_iff_eq, ← List.length_eq_zero_iff]
  omega

theorem Ahead.skip {r : ByteReader} {a b : Text} (h : Ahead r (a ++ b)) :
    Ahead (r.skip a.length) b := by
  have hl := h.length
  rw [List.length_append] at hl
  refine ⟨h.ok, ?_, ?_⟩
  · simp only [ByteReader.skip]; omega
  · simp only [ByteReader.skip]
    rw [← List.drop_drop, h.rest, List.drop_left]

theorem Ahead.need {r : ByteReader} {bs : Text} (h : Ahead r bs) {n : Nat} (hn : n ≤ bs.length) :
    r.need n = (true, r) := by
  have hl := h.length
  have hfit : ¬ n > r.data.length - r.offset := by omega
  simp [ByteReader.need, h.ok, hfit]

theorem Ahead.u8 {r : ByteReader} {b : UInt8} {bs : Text} (h : Ahead r (b :: bs)) :
    r.u8 = (b.toNat, r.skip 1) ∧ Ahead (r.skip 1) bs := by
  have hget : r.data[r.offset]? = some b := by
    have h0 := congrArg (fun l => l[0]?) h.rest
    simpa using h0
  refine ⟨?_, ?_⟩
  · simp [ByteReader.u8, h.need (by simp : 1 ≤ (b :: bs).length), List.getD, hget,
      ByteReader.skip]
  · exact Ahead.skip (a := [b]) (by simpa using h)

@[simp] theorem skip_skip (r : ByteReader) (m n : Nat) : (r.skip m).skip n = r.skip (m + n) := by
  simp [skip, Nat.add_assoc]

theorem Ahead.u16 {r : ByteReader} {v : Nat} {bs : Text} (h : Ahead r (u16Bytes v ++ bs)) :
    r.u16 = (v % 65536, r.skip 2) ∧ Ahead (r.skip 2) bs := by
  obtain ⟨h1, a1⟩ := Ahead.u8 h
  obtain ⟨h2, a2⟩ := Ahead.u8 a1
  refine ⟨?_, by simpa using a2⟩
  simp only [ByteReader.u16, h1, h2, skip_skip]
  simp
  omega

theorem Ahead.u32 {r : ByteReader} {v : Nat} {bs : Text} (h : Ahead r (u32Bytes v ++ bs)) :
    r.u32 = (v % 4294967296, r.skip 4) ∧ Ahead (r.skip 4) bs := by
  rw [u32Bytes, List.append_assoc] at h
  obtain ⟨h1, a1⟩ := Ahead.u16 h
  obtain ⟨h2, a2⟩ := Ahead.u16 a1
  refine ⟨?_, by simpa using a2⟩
  simp only [ByteReader.u32, h1, h2, skip_skip]
  simp
  omega

theorem Ahead.u64 {r : ByteReader} {v : Nat} {bs : Text} (h : Ahead r (u64Bytes v ++ bs)) :
    r.u64 = (v % 18446744073709551616, r.skip 8) ∧ Ahead (r.skip 8) bs := by
  rw [u64Bytes, List.append_assoc] at h
  obtain ⟨h1, a1⟩ := Ahead.u32 h
  obtain ⟨h2, a2⟩ := Ahead.u32 a1
  refine ⟨?_, by simpa using a2⟩
  simp only [ByteReader.u64, h1, h2, skip_skip]
  simp
  omega

/-- The signed reading undoes the wrap of `i64Bytes`. -/
theorem signed_wrap {v : Int} (hv : -9223372036854775808 ≤ v ∧ v < 9223372036854775808) :
    signed ((v % 18446744073709551616).toNat % 18446744073709551616) = v := by
  unfold signed
  split <;> omega

/-- A value of the 64-bit signed range reads back as written. -/
theorem Ahead.i64 {r : ByteReader} {v : Int} {bs : Text} (h : Ahead r (i64Bytes v ++ bs))
    (hv : -9223372036854775808 ≤ v ∧ v < 9223372036854775808) :
    r.i64 = (v, r.skip 8) ∧ Ahead (r.skip 8) bs := by
  obtain ⟨h1, a1⟩ := Ahead.u64 h
  refine ⟨?_, a1⟩
  rw [ByteReader.i64, h1]
  simp only [signed_wrap hv]

theorem Ahead.boolean {r : ByteReader} {v : Bool} {bs : Text} (h : Ahead r (boolBytes v ++ bs)) :
    r.boolean = (v, r.skip 1) ∧ Ahead (r.skip 1) bs := by
  obtain ⟨h1, a1⟩ := Ahead.u8 h
  refine ⟨?_, a1⟩
  cases v <;> simp [ByteReader.boolean, h1]

/-- A string within its bound, and within the width of its length, reads back as written. -/
theorem Ahead.text {r : ByteReader} {data bs : Text} {max_length : Nat}
    (h : Ahead r (u16Bytes data.length ++ (data ++ bs))) (hm : data.length ≤ max_length)
    (hw : data.length < 65536) :
    r.str max_length = (data, r.skip (2 + data.length)) ∧ Ahead (r.skip (2 + data.length)) bs := by
  obtain ⟨h1, a1⟩ := Ahead.u16 h
  have hfit : ¬((r.skip 2).ok = false ∨ data.length > max_length) := by
    rintro (hb | hb)
    · simp [a1.ok] at hb
    · omega
  refine ⟨?_, by simpa using a1.skip⟩
  simp only [ByteReader.str, h1, Nat.mod_eq_of_lt hw, if_neg hfit]
  rw [a1.need (by simp)]
  simp only [a1.rest, List.take_left']
  simp [ByteReader.skip, Nat.add_assoc]

/-- A string reads back as it was written: clipped to the bound. -/
theorem Ahead.str {r : ByteReader} {t bs : Text} {max_length : Nat}
    (h : Ahead r (strBytes max_length t ++ bs)) (hw : max_length ≤ 65535) :
    r.str max_length = (clip max_length t, r.skip (2 + (clip max_length t).length)) ∧
      Ahead (r.skip (2 + (clip max_length t).length)) bs := by
  have hm := clip_length_le max_length t
  rw [strBytes, List.append_assoc] at h
  exact h.text hm (by omega)

/-- A blob within its bound reads back as written. -/
theorem Ahead.blob {r : ByteReader} {data bs : Text} {max_length : Nat}
    (h : Ahead r (u32Bytes data.length ++ (data ++ bs))) (hm : data.length ≤ max_length)
    (hw : data.length < 4294967296) :
    r.blob max_length = (data, r.skip (4 + data.length)) ∧
      Ahead (r.skip (4 + data.length)) bs := by
  obtain ⟨h1, a1⟩ := Ahead.u32 h
  have hfit : ¬((r.skip 4).ok = false ∨ data.length > max_length) := by
    rintro (hb | hb)
    · simp [a1.ok] at hb
    · omega
  refine ⟨?_, by simpa using a1.skip⟩
  simp only [ByteReader.blob, h1, Nat.mod_eq_of_lt hw, if_neg hfit]
  rw [a1.need (by simp)]
  simp only [a1.rest, List.take_left']
  simp [ByteReader.skip, Nat.add_assoc]

/-! ### What a read that succeeded has consumed -/

theorem u8_ok {r : ByteReader} (h : r.u8.2.ok = true) : r.ok = true := by
  by_contra hno
  have hdead : r.ok = false := by simpa using hno
  simp [u8, need, hdead] at h

theorem u16_ok {r : ByteReader} (h : r.u16.2.ok = true) : r.ok = true := u8_ok (u8_ok h)

theorem u32_ok {r : ByteReader} (h : r.u32.2.ok = true) : r.ok = true := u16_ok (u16_ok h)

theorem blob_ok {r : ByteReader} {max_length : Nat} (h : (r.blob max_length).2.ok = true) :
    r.ok = true := by
  apply u32_ok
  by_contra hno
  have hdead : r.u32.2.ok = false ∨ r.u32.1 > max_length := .inl (by simpa using hno)
  simp only [blob, if_pos hdead] at h
  cases h

theorem Ahead.u8_inv {r : ByteReader} {bs : Text} (h : Ahead r bs) (hok : r.u8.2.ok = true) :
    ∃ b rest, bs = b :: rest := by
  cases bs with
  | cons b rest => exact ⟨b, rest, rfl⟩
  | nil =>
    have hl := h.length
    have hempty : ¬ 1 ≤ r.data.length - r.offset := by
      simp only [List.length_nil] at hl
      omega
    simp only [ByteReader.u8, ByteReader.need, h.ok, Nat.not_le.mp hempty] at hok
    simp at hok

theorem Ahead.u16_inv {r : ByteReader} {bs : Text} (h : Ahead r bs) (hok : r.u16.2.ok = true) :
    ∃ v rest, v < 65536 ∧ bs = u16Bytes v ++ rest := by
  obtain ⟨hi, rest, rfl⟩ := h.u8_inv (u8_ok hok)
  obtain ⟨h1, a1⟩ := h.u8
  have hok2 : (r.skip 1).u8.2.ok = true := by simpa only [ByteReader.u16, h1] using hok
  obtain ⟨lo, rest, rfl⟩ := a1.u8_inv hok2
  have hhi := hi.toNat_lt
  have hlo := lo.toNat_lt
  have hdiv : (hi.toNat * 256 + lo.toNat) / 256 = hi.toNat := by omega
  refine ⟨hi.toNat * 256 + lo.toNat, rest, by omega, ?_⟩
  have hlow : UInt8.ofNat (hi.toNat * 256 + lo.toNat) = lo := by
    apply UInt8.toNat_inj.mp
    simp only [UInt8.toNat_ofNat']
    omega
  simp [u16Bytes, hdiv, hlow]

theorem Ahead.u32_inv {r : ByteReader} {bs : Text} (h : Ahead r bs) (hok : r.u32.2.ok = true) :
    ∃ v rest, v < 4294967296 ∧ bs = u32Bytes v ++ rest := by
  obtain ⟨hi, rest, hhi, rfl⟩ := h.u16_inv (u16_ok hok)
  obtain ⟨h1, a1⟩ := h.u16
  have hok2 : (r.skip 2).u16.2.ok = true := by simpa only [ByteReader.u32, h1] using hok
  obtain ⟨lo, rest, hlo, rfl⟩ := a1.u16_inv hok2
  have hdiv : (hi * 65536 + lo) / 65536 = hi := by omega
  refine ⟨hi * 65536 + lo, rest, by omega, ?_⟩
  have hlow : u16Bytes (hi * 65536 + lo) = u16Bytes lo := by
    have hquot : UInt8.ofNat ((hi * 65536 + lo) / 256) = UInt8.ofNat (lo / 256) := by
      apply UInt8.toNat_inj.mp
      simp only [UInt8.toNat_ofNat']
      omega
    have hrem : UInt8.ofNat (hi * 65536 + lo) = UInt8.ofNat lo := by
      apply UInt8.toNat_inj.mp
      simp only [UInt8.toNat_ofNat']
      omega
    rw [u16Bytes, u16Bytes, hquot, hrem]
  rw [u32Bytes, hdiv, hlow, List.append_assoc]

theorem Ahead.blob_inv {r : ByteReader} {bs : Text} {max_length : Nat} (h : Ahead r bs)
    (hok : (r.blob max_length).2.ok = true) :
    ∃ data rest, data.length ≤ max_length ∧ data.length < 4294967296 ∧
      bs = u32Bytes data.length ++ (data ++ rest) := by
  have hlive : ¬ (r.u32.2.ok = false ∨ r.u32.1 > max_length) := by
    intro hdead
    simp only [ByteReader.blob, if_pos hdead] at hok
    cases hok
  rw [not_or] at hlive
  obtain ⟨v, rest, hv, rfl⟩ := h.u32_inv (by simpa using hlive.1)
  obtain ⟨h1, a1⟩ := h.u32
  rw [Nat.mod_eq_of_lt hv] at h1
  have hmax : v ≤ max_length := by simpa [h1] using hlive.2
  -- The bytes are there, or `need` would have latched the failure.
  have hfit : v ≤ rest.length := by
    by_contra hshort
    have hl := a1.length
    have hno : v > (r.skip 4).data.length - (r.skip 4).offset := by omega
    have hdead : ¬ ((r.skip 4).ok = false ∨ v > max_length) := by
      rw [not_or]
      exact ⟨by simp [a1.ok], by omega⟩
    simp only [ByteReader.blob, h1, ByteReader.need, a1.ok, hno] at hok
    simp at hok
  refine ⟨rest.take v, rest.drop v, ?_, ?_, ?_⟩
  · rw [List.length_take_of_le hfit]
    exact hmax
  · rw [List.length_take_of_le hfit]
    exact hv
  · rw [List.length_take_of_le hfit, List.take_append_drop]

/-! ### Reads leave the buffer as it is -/

theorem need_data (r : ByteReader) (n : Nat) : (r.need n).2.data = r.data := by
  unfold need
  split
  · rfl
  · split <;> rfl

theorem u8_data (r : ByteReader) : r.u8.2.data = r.data := by
  have h := r.need_data 1
  unfold u8
  split <;> next heq => simpa [heq] using h

theorem u16_data (r : ByteReader) : r.u16.2.data = r.data := by
  unfold u16
  exact (r.u8.2.u8_data).trans r.u8_data

theorem u32_data (r : ByteReader) : r.u32.2.data = r.data := by
  unfold u32
  exact (r.u16.2.u16_data).trans r.u16_data

theorem u64_data (r : ByteReader) : r.u64.2.data = r.data := by
  unfold u64
  exact (r.u32.2.u32_data).trans r.u32_data

theorem str_data (r : ByteReader) (n : Nat) : (r.str n).2.data = r.data := by
  have h1 := r.u16_data
  have h2 := r.u16.2.need_data r.u16.1
  unfold str
  simp only
  split
  · exact h1
  · split <;> next heq => rw [heq] at h2; exact h2.trans h1

end ByteReader

end MaintenanceFabric
