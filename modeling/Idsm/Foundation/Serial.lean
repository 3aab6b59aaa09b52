import Mathlib

/-! Sequence numbers of 32 bits that wrap around. A position counts from a base without
end; numbers less than half the range apart compare as their positions do. -/

set_option autoImplicit false

namespace Idsm.Foundation

/-- The number of a position. -/
def serial (base : UInt32) (position : Nat) : UInt32 := base + UInt32.ofNat position

theorem serial_add (base : UInt32) (position length : Nat) :
    serial base position + UInt32.ofNat length = serial base (position + length) := by
  unfold serial
  rw [UInt32.ofNat_add, UInt32.add_assoc]

theorem serial_succ (base : UInt32) (position : Nat) :
    serial base position + 1 = serial base (position + 1) :=
  serial_add base position 1

theorem serial_sub (base : UInt32) (i j : Nat) :
    serial base i - serial base j = UInt32.ofNat i - UInt32.ofNat j := by
  unfold serial
  grind

private theorem ofNat_toInt (i : Nat) :
    (UInt32.ofNat i).toBitVec.toInt = (i : Int).bmod (2 ^ 32) := by
  rw [UInt32.toBitVec_ofNat']
  exact BitVec.toInt_ofNat i

/-- The signed distance of two numbers is that of their positions, up to the range. -/
theorem serial_distance (base : UInt32) (i j : Nat) :
    (serial base i - serial base j).toInt32.toInt = ((i : Int) - j).bmod (2 ^ 32) := by
  have signed : (UInt32.ofNat i - UInt32.ofNat j).toInt32.toInt =
      (UInt32.ofNat i - UInt32.ofNat j).toBitVec.toInt := rfl
  rw [serial_sub, signed, UInt32.toBitVec_sub, BitVec.toInt_sub, ofNat_toInt, ofNat_toInt]
  exact (Int.sub_bmod i j (2 ^ 32)).symm

theorem serial_distance_of_near (base : UInt32) {i j : Nat} (ahead : i < j + 2 ^ 31)
    (behind : j ≤ i + 2 ^ 31) : (serial base i - serial base j).toInt32.toInt = (i : Int) - j := by
  rw [serial_distance, Int.bmod_def]
  split <;> omega

theorem serial_le_iff (base : UInt32) {i j : Nat} (ahead : i < j + 2 ^ 31)
    (behind : j ≤ i + 2 ^ 31) : (serial base i - serial base j).toInt32 ≤ 0 ↔ i ≤ j := by
  have zero : (0 : Int32).toInt = 0 := rfl
  rw [Int32.le_iff_toInt_le, serial_distance_of_near base ahead behind, zero]
  omega

theorem serial_lt_iff (base : UInt32) {i j : Nat} (ahead : i < j + 2 ^ 31)
    (behind : j ≤ i + 2 ^ 31) : (serial base i - serial base j).toInt32 < 0 ↔ i < j := by
  have zero : (0 : Int32).toInt = 0 := rfl
  rw [Int32.lt_iff_toInt_lt, serial_distance_of_near base ahead behind, zero]
  omega

theorem serial_inj (base : UInt32) {i j : Nat} (ahead : i < j + 2 ^ 32) (behind : j < i + 2 ^ 32) :
    serial base i = serial base j ↔ i = j := by
  constructor
  · intro same
    have values := congrArg UInt32.toNat ((UInt32.add_right_inj base).mp same)
    rw [UInt32.toNat_ofNat', UInt32.toNat_ofNat'] at values
    omega
  · rintro rfl
    rfl

theorem serial_sub_toNat (base : UInt32) {i j : Nat} (behind : j ≤ i) (ahead : i < j + 2 ^ 32) :
    (serial base i - serial base j).toNat = i - j := by
  rw [serial_sub, UInt32.toNat_sub, UInt32.toNat_ofNat', UInt32.toNat_ofNat']
  omega

end Idsm.Foundation
