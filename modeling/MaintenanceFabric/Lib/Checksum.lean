import Mathlib.Data.List.Basic
import Mathlib.Logic.Function.Iterate
import Mathlib.Tactic.Common

/-! # Checksums that see every single change

    A checksum folds a step over the symbols of a word.  If the step loses
    nothing, neither of the state nor of the symbol, then two words of one
    length that differ in a single symbol have different checksums
    (`foldl_set_ne`).

    The reflected table-driven CRC of 32 bits is such a step for every
    polynomial with its top bit set: shifting one bit out is linear and
    injective, and the table step on a byte is eight of those shifts.
-/

namespace Lib

/-- Change one symbol of a word, and a fold whose step is injective in the state and in the
    symbol ends in another state. -/
theorem foldl_set_ne {σ α : Type} {step : σ → α → σ}
    (hstate : ∀ a, Function.Injective (step · a)) (hsymbol : ∀ s, Function.Injective (step s))
    {word : List α} {i : Nat} (hi : i < word.length) {a : α} (ha : a ≠ word[i]) (s : σ) :
    (word.set i a).foldl step s ≠ word.foldl step s := by
  have hsame : ∀ (rest : List α) {s t : σ}, s ≠ t → rest.foldl step s ≠ rest.foldl step t := by
    intro rest
    induction rest with
    | nil => exact id
    | cons b rest ih => exact fun hne => ih ((hstate b).ne hne)
  induction word generalizing i s with
  | nil => exact absurd hi (by simp)
  | cons b rest ih =>
    cases i with
    | zero => exact hsame rest ((hsymbol s).ne ha)
    | succ i => exact ih (by simpa using hi) (by simpa using ha) (step s b)

/-! ## One bit of a reflected CRC -/

/-- Shift one bit out of the remainder; a set bit takes the polynomial with it. -/
def crcShift (poly crc : UInt32) : UInt32 :=
  if crc &&& 1 ≠ 0 then (crc >>> 1) ^^^ poly else crc >>> 1

/-- Bit `i` of a word. -/
def bitAt (x : UInt32) (i : Nat) : Bool := x.toNat.testBit i

theorem bitAt_ext {a b : UInt32} (h : ∀ i, bitAt a i = bitAt b i) : a = b :=
  UInt32.toNat_inj.mp (Nat.eq_of_testBit_eq h)

theorem bitAt_xor (a b : UInt32) (i : Nat) : bitAt (a ^^^ b) i = (bitAt a i ^^ bitAt b i) := by
  rw [bitAt, UInt32.toNat_xor, Nat.testBit_xor]
  rfl

theorem bitAt_and (a b : UInt32) (i : Nat) : bitAt (a &&& b) i = (bitAt a i && bitAt b i) := by
  rw [bitAt, UInt32.toNat_and, Nat.testBit_and]
  rfl

theorem bitAt_of_le (x : UInt32) {i : Nat} (hi : 32 ≤ i) : bitAt x i = false :=
  Nat.testBit_lt_two_pow (Nat.lt_of_lt_of_le x.toNat_lt (Nat.pow_le_pow_right (by decide) hi))

theorem bitAt_toUInt32_of_le (byte : UInt8) {i : Nat} (hi : 8 ≤ i) :
    bitAt byte.toUInt32 i = false := by
  rw [bitAt, UInt8.toNat_toUInt32]
  exact Nat.testBit_lt_two_pow
    (Nat.lt_of_lt_of_le byte.toNat_lt (Nat.pow_le_pow_right (by decide) hi))

theorem and_one_ne_zero_iff (x : UInt32) : x &&& 1 ≠ 0 ↔ bitAt x 0 = true := by
  rw [ne_eq, ← UInt32.toNat_inj, UInt32.toNat_and, bitAt, Nat.testBit_zero]
  simp [Nat.and_one_is_mod]

section Shift

variable {poly : UInt32}

theorem bitAt_crcShift (x : UInt32) (i : Nat) :
    bitAt (crcShift poly x) i = (bitAt x (i + 1) ^^ (bitAt x 0 && bitAt poly i)) := by
  have hshift : bitAt (x >>> 1) i = bitAt x (i + 1) := by
    simp [bitAt, Nat.testBit_shiftRight, Nat.add_comm]
  rw [crcShift]
  by_cases h : bitAt x 0 = true
  · rw [if_pos ((and_one_ne_zero_iff x).mpr h), bitAt_xor, hshift, h, Bool.true_and]
  · rw [if_neg (mt (and_one_ne_zero_iff x).mp h), hshift, eq_false_of_ne_true h, Bool.false_and,
      Bool.xor_false]

theorem crcShift_xor (a b : UInt32) :
    crcShift poly (a ^^^ b) = crcShift poly a ^^^ crcShift poly b := by
  apply bitAt_ext
  intro i
  simp only [bitAt_crcShift, bitAt_xor]
  generalize bitAt a (i + 1) = p
  generalize bitAt b (i + 1) = q
  generalize bitAt a 0 = r
  generalize bitAt b 0 = s
  generalize bitAt poly i = t
  revert p q r s t
  decide

theorem crcShift_injective (htop : bitAt poly 31 = true) :
    Function.Injective (crcShift poly) := by
  intro a b h
  have hbits : ∀ i, (bitAt a (i + 1) ^^ (bitAt a 0 && bitAt poly i)) =
      (bitAt b (i + 1) ^^ (bitAt b 0 && bitAt poly i)) := by
    intro i
    rw [← bitAt_crcShift, ← bitAt_crcShift, h]
  -- the top bit of the result is the bit that was shifted out
  have hlow : bitAt a 0 = bitAt b 0 := by
    have := hbits 31
    rwa [bitAt_of_le a (by omega), bitAt_of_le b (by omega), htop, Bool.and_true, Bool.and_true,
      Bool.false_xor, Bool.false_xor] at this
  apply bitAt_ext
  intro i
  cases i with
  | zero => exact hlow
  | succ i =>
    have := hbits i
    rw [hlow] at this
    exact Bool.xor_left_inj.mp this

/-! ## A byte at a time -/

theorem crcShifts_xor (n : Nat) (a b : UInt32) :
    (crcShift poly)^[n] (a ^^^ b) = (crcShift poly)^[n] a ^^^ (crcShift poly)^[n] b := by
  induction n with
  | zero => rfl
  | succ n ih => simp only [Function.iterate_succ_apply', ih, crcShift_xor]

/-- A word whose low `n` bits are clear only moves down. -/
theorem bitAt_crcShifts {x : UInt32} {n : Nat} (h : ∀ i < n, bitAt x i = false) (i : Nat) :
    bitAt ((crcShift poly)^[n] x) i = bitAt x (n + i) := by
  induction n generalizing i with
  | zero => simp
  | succ n ih =>
    have hn := ih (fun k hk => h k (by omega))
    rw [Function.iterate_succ_apply', bitAt_crcShift, hn, hn, Nat.add_zero n, h n (by omega),
      Bool.false_and, Bool.xor_false]
    congr 1
    omega

/-- The table step: the entry for the low byte, over the rest moved down. -/
def crcStep (poly crc : UInt32) (byte : UInt8) : UInt32 :=
  (crcShift poly)^[8] ((crc ^^^ byte.toUInt32) &&& 0xFF) ^^^ (crc >>> 8)

theorem bitAt_low (i : Nat) : bitAt 0xFF i = decide (i < 8) := Nat.testBit_two_pow_sub_one 8 i

theorem bitAt_high (i : Nat) : bitAt 0xFFFFFF00 i = (decide (8 ≤ i) && decide (i - 8 < 24)) := by
  have hmask : (0xFFFFFF00 : UInt32).toNat = (2 ^ 24 - 1) <<< 8 := by decide
  rw [bitAt, hmask, Nat.testBit_shiftLeft, Nat.testBit_two_pow_sub_one]

theorem xor_low_high (x : UInt32) : x = (x &&& 0xFF) ^^^ (x &&& 0xFFFFFF00) := by
  apply bitAt_ext
  intro i
  rw [bitAt_xor, bitAt_and, bitAt_and, bitAt_low, bitAt_high]
  by_cases hlow : i < 8
  · have hhigh : ¬ 8 ≤ i := by omega
    simp [hlow, hhigh]
  · by_cases hwide : i < 32
    · have hhigh : 8 ≤ i := by omega
      have hbound : i - 8 < 24 := by omega
      simp [hlow, hhigh, hbound]
    · rw [bitAt_of_le x (by omega)]
      simp

theorem crcShifts_high (crc : UInt32) (byte : UInt8) :
    (crcShift poly)^[8] ((crc ^^^ byte.toUInt32) &&& 0xFFFFFF00) = crc >>> 8 := by
  apply bitAt_ext
  intro i
  have hclear : ∀ k < 8, bitAt ((crc ^^^ byte.toUInt32) &&& 0xFFFFFF00) k = false := by
    intro k hk
    have : ¬ 8 ≤ k := by omega
    simp [bitAt_and, bitAt_high, this]
  have hshift : bitAt (crc >>> 8) i = bitAt crc (8 + i) := by
    simp [bitAt, Nat.testBit_shiftRight]
  rw [bitAt_crcShifts hclear, bitAt_and, bitAt_high, bitAt_xor, bitAt_toUInt32_of_le _ (by omega),
    Bool.xor_false, hshift]
  by_cases hbound : i < 24
  · simp [hbound]
  · rw [bitAt_of_le crc (by omega)]
    simp

/-- The table step on a byte is eight shifts of the remainder with the byte folded in. -/
theorem crcStep_eq (crc : UInt32) (byte : UInt8) :
    crcStep poly crc byte = (crcShift poly)^[8] (crc ^^^ byte.toUInt32) := by
  conv_rhs => rw [xor_low_high (crc ^^^ byte.toUInt32), crcShifts_xor, crcShifts_high]
  rfl

theorem crcStep_injective_state (htop : bitAt poly 31 = true) (byte : UInt8) :
    Function.Injective (crcStep poly · byte) := by
  intro a b h
  simp only [crcStep_eq] at h
  exact (UInt32.xor_left_inj _).mp ((crcShift_injective htop).iterate 8 h)

theorem crcStep_injective_symbol (htop : bitAt poly 31 = true) (crc : UInt32) :
    Function.Injective (crcStep poly crc) := by
  intro a b h
  rw [crcStep_eq, crcStep_eq] at h
  have hxor := (UInt32.xor_right_inj _).mp ((crcShift_injective htop).iterate 8 h)
  have hnat := congrArg UInt32.toNat hxor
  rw [UInt8.toNat_toUInt32, UInt8.toNat_toUInt32] at hnat
  exact UInt8.toNat_inj.mp hnat

end Shift

end Lib
