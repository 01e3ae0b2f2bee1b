import MaintenanceFabric.Core.Bytes
import MaintenanceFabric.Lib.Checksum

/-! # Checksums and digests

    CRC-32C guards every journal frame; FNV-1a 64 builds the content digests
    that jobs record about the policy and the topology they were admitted
    under.
-/

namespace MaintenanceFabric

/-! ## CRC-32C (Castagnoli, reflected) -/

/-- One bit of the table construction. -/
def crc_bit (crc : UInt32) : UInt32 :=
  if crc &&& 1 ≠ 0 then (crc >>> 1) ^^^ 0x82F63B78 else crc >>> 1

/-- Entry `i` of the 256-entry table. -/
def kCrcTable (i : UInt32) : UInt32 := crc_bit^[8] i

def crc32c_step (crc : UInt32) (byte : UInt8) : UInt32 :=
  kCrcTable ((crc ^^^ byte.toUInt32) &&& 0xFF) ^^^ (crc >>> 8)

def crc32c (data : Text) : UInt32 := data.foldl crc32c_step 0xFFFFFFFF ^^^ 0xFFFFFFFF

theorem crc32c_step_eq_crcStep : crc32c_step = Lib.crcStep 0x82F63B78 := rfl

/-- The checksum changes with every change of a single byte. -/
theorem crc32c_set_ne {data : Text} {i : Nat} (hi : i < data.length) {byte : UInt8}
    (hne : byte ≠ data[i]) : crc32c (data.set i byte) ≠ crc32c data := by
  have htop : Lib.bitAt 0x82F63B78 31 = true := by decide
  have hfold := Lib.foldl_set_ne (Lib.crcStep_injective_state htop)
    (Lib.crcStep_injective_symbol htop) hi hne 0xFFFFFFFF
  rw [← crc32c_step_eq_crcStep] at hfold
  intro h
  exact hfold ((UInt32.xor_left_inj _).mp h)

/-! ## FNV-1a 64 -/

structure Digest where
  h : UInt64 := 14695981039346656037
  deriving DecidableEq

namespace Digest

def update (d : Digest) (data : Text) : Digest :=
  ⟨data.foldl (fun h byte => (h ^^^ byte.toUInt64) * 1099511628211) d.h⟩

def update_u64 (d : Digest) (v : Nat) : Digest := d.update (u64Bytes v)
def update_u32 (d : Digest) (v : Nat) : Digest := d.update (u32Bytes v)

/-- A signed value is hashed as its two's complement image. -/
def update_i64 (d : Digest) (v : Int) : Digest := d.update_u64 (v % 18446744073709551616).toNat

def update_bool (d : Digest) (v : Bool) : Digest := d.update [if v then 1 else 0]

def value (d : Digest) : UInt64 := d.h

end Digest

/-- The 16 hexadecimal digits of a digest. -/
def hex_u64 (value : UInt64) : Text :=
  (List.range 16).map (fun i =>
    let digit := value.toNat / 16 ^ (15 - i) % 16
    UInt8.ofNat (if digit < 10 then 48 + digit else 87 + digit))

end MaintenanceFabric
