import Idsm.EthProbe.Packet

/-! What is read from bytes that more bytes follow. -/

set_option autoImplicit false

namespace Idsm.EthProbe

variable {front rest : List UInt8} {index length : Nat}

theorem byteAt_append (inside : index < front.length) :
    byteAt (front ++ rest) index = byteAt front index :=
  List.getD_append _ _ _ _ inside

theorem rd16_append (inside : index + 2 ≤ front.length) :
    rd16 (front ++ rest) index = rd16 front index := by
  unfold rd16
  rw [byteAt_append (by omega), byteAt_append (by omega)]

theorem rd32_append (inside : index + 4 ≤ front.length) :
    rd32 (front ++ rest) index = rd32 front index := by
  unfold rd32
  rw [byteAt_append (by omega), byteAt_append (by omega), byteAt_append (by omega),
    byteAt_append (by omega)]

theorem slice_append (inside : index + length ≤ front.length) :
    slice (front ++ rest) index length = slice front index length := by
  unfold slice
  rw [List.drop_append_of_le_length (by omega), List.take_append_of_le_length]
  rw [List.length_drop]
  omega

theorem rd16_toNat (p : List UInt8) (index : Nat) :
    (rd16 p index).toNat = (byteAt p index).toNat * 256 + (byteAt p (index + 1)).toNat := by
  have high := (byteAt p index).toNat_lt
  have low := (byteAt p (index + 1)).toNat_lt
  have shifted : ((byteAt p index).toUInt16 <<< 8).toNat = (byteAt p index).toNat <<< 8 := by
    rw [UInt16.toNat_shiftLeft, UInt8.toNat_toUInt16]
    have small : (byteAt p index).toNat <<< 8 < 2 ^ 16 := by
      rw [Nat.shiftLeft_eq]
      omega
    exact Nat.mod_eq_of_lt small
  rw [rd16, UInt16.toNat_or, shifted, UInt8.toNat_toUInt16,
    ← Nat.shiftLeft_add_eq_or_of_lt (by omega), Nat.shiftLeft_eq]

/-- A number as its two bytes, the high one first. -/
def be16 (value : UInt16) : List UInt8 := [(value >>> 8).toUInt8, value.toUInt8]

theorem byteAt_front (front rest : List UInt8) (value : UInt8) :
    byteAt (front ++ value :: rest) front.length = value := by
  simp [byteAt]

theorem rd16_be16 (front rest : List UInt8) (value : UInt16) :
    rd16 (front ++ be16 value ++ rest) front.length = value := by
  have high : byteAt (front ++ be16 value ++ rest) front.length = (value >>> 8).toUInt8 := by
    simp [byteAt, be16]
  have low : byteAt (front ++ be16 value ++ rest) (front.length + 1) = value.toUInt8 := by
    simp [byteAt, be16, List.getD_eq_getElem?_getD]
  have bound := value.toNat_lt
  apply UInt16.toNat_inj.mp
  rw [rd16_toNat, high, low]
  simp only [UInt16.toNat_toUInt8, UInt16.toNat_shiftRight, Nat.shiftRight_eq_div_pow,
    UInt16.reduceToNat, Nat.reduceMod, Nat.reducePow]
  omega

end Idsm.EthProbe
