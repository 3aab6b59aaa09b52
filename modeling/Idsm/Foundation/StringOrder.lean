import Idsm.Foundation.Text

/-! The orders that strings have by their bytes, by their UTF-16 units and by their
code points. They sort ASCII lines alike. -/

set_option autoImplicit false

namespace Idsm.Foundation

def utf16EncodeChar (c : Char) : List UInt16 :=
  if c.toNat < 0x10000 then [c.toNat.toUInt16]
  else
    [(0xD800 + (c.toNat - 0x10000) / 0x400).toUInt16,
      (0xDC00 + (c.toNat - 0x10000) % 0x400).toUInt16]

def utf16 (text : String) : List UInt16 := text.toList.flatMap utf16EncodeChar

/-- The order of C++ strings, as arrays of unsigned bytes. -/
def BytesLe (left right : String) : Prop := utf8 left ≤ utf8 right

instance : DecidableRel BytesLe := fun left right =>
  inferInstanceAs (Decidable (utf8 left ≤ utf8 right))

/-- The order of JVM strings. -/
def UnitsLe (left right : String) : Prop := utf16 left ≤ utf16 right

instance : DecidableRel UnitsLe := fun left right =>
  inferInstanceAs (Decidable (utf16 left ≤ utf16 right))

def Ascii (text : String) : Prop := ∀ c ∈ text.toList, c.toNat ≤ 0x7F

theorem Ascii.append {left right : String} (first : Ascii left) (second : Ascii right) :
    Ascii (left ++ right) := by
  intro c member
  rw [String.toList_append, List.mem_append] at member
  cases member with
  | inl inside => exact first c inside
  | inr inside => exact second c inside

section Codes

variable {α : Type} [LT α] {code : α → Nat} (injective : Function.Injective code)
  (ascending : ∀ {first second : α}, code first < code second ↔ first < second)

include injective ascending

/-- A code that keeps the order of symbols keeps that of words. -/
private theorem map_lt_map_iff {left right : List α} :
    left.map code < right.map code ↔ left < right := by
  induction left generalizing right with
  | nil =>
      cases right with
      | nil => simp
      | cons second right => simp
  | cons first left ih =>
      cases right with
      | nil => simp
      | cons second right =>
          rw [List.map_cons, List.map_cons, List.cons_lt_cons_iff, List.cons_lt_cons_iff, ih,
            ascending, injective.eq_iff]

end Codes

theorem utf8_ascii {text : String} (ascii : Ascii text) :
    (utf8 text).map UInt8.toNat = text.toList.map Char.toNat := by
  have encoded : ∀ c ∈ text.toList, (String.utf8EncodeChar c).map UInt8.toNat = [c.toNat] := by
    intro c member
    have bound : c.val.toNat ≤ 127 := ascii c member
    simp only [String.utf8EncodeChar, bound, if_true, List.map_cons, List.map_nil,
      UInt8.toNat_ofNat', List.cons.injEq, and_true]
    exact Nat.mod_eq_of_lt (by omega)
  rw [utf8, List.map_flatMap, List.flatMap_congr encoded, List.map_eq_flatMap]

theorem utf16_ascii {text : String} (ascii : Ascii text) :
    (utf16 text).map UInt16.toNat = text.toList.map Char.toNat := by
  have encoded : ∀ c ∈ text.toList, (utf16EncodeChar c).map UInt16.toNat = [c.toNat] := by
    intro c member
    have bound : c.toNat ≤ 127 := ascii c member
    simp only [utf16EncodeChar, (by omega : c.toNat < 0x10000), if_true, List.map_cons,
      List.map_nil, UInt16.toNat_ofNat', List.cons.injEq, and_true]
    exact Nat.mod_eq_of_lt (by omega)
  rw [utf16, List.map_flatMap, List.flatMap_congr encoded, List.map_eq_flatMap]

section Ascii

variable {left right : String} (leftAscii : Ascii left) (rightAscii : Ascii right)

include leftAscii rightAscii

theorem bytesLe_iff : BytesLe left right ↔ left ≤ right := by
  have bytes : utf8 right < utf8 left ↔ right.toList < left.toList := by
    rw [← map_lt_map_iff (fun _ _ => UInt8.toNat_inj.mp) UInt8.lt_iff_toNat_lt.symm,
      utf8_ascii leftAscii, utf8_ascii rightAscii,
      map_lt_map_iff (fun _ _ => Char.toNat_inj.mp) Iff.rfl]
  rw [← not_lt, String.lt_iff_toList_lt]
  exact not_congr bytes

theorem unitsLe_iff : UnitsLe left right ↔ left ≤ right := by
  have units : utf16 right < utf16 left ↔ right.toList < left.toList := by
    rw [← map_lt_map_iff (fun _ _ => UInt16.toNat_inj.mp) UInt16.lt_iff_toNat_lt.symm,
      utf16_ascii leftAscii, utf16_ascii rightAscii,
      map_lt_map_iff (fun _ _ => Char.toNat_inj.mp) Iff.rfl]
  rw [← not_lt, String.lt_iff_toList_lt]
  exact not_congr units

end Ascii

/-- Relations that agree on a list's members sort it alike. -/
theorem insertionSort_congr {α : Type} {r s : α → α → Prop} [DecidableRel r] [DecidableRel s]
    {lines : List α} (same : ∀ first ∈ lines, ∀ second ∈ lines, r first second ↔ s first second) :
    lines.insertionSort r = lines.insertionSort s := by
  have mapped := List.map_insertionSort r s id lines same
  rwa [List.map_id, List.map_id] at mapped

theorem insertionSort_bytesLe {lines : List String} (ascii : ∀ line ∈ lines, Ascii line) :
    lines.insertionSort BytesLe = lines.insertionSort (· ≤ ·) :=
  insertionSort_congr fun first inside second inside' =>
    bytesLe_iff (ascii first inside) (ascii second inside')

theorem insertionSort_unitsLe {lines : List String} (ascii : ∀ line ∈ lines, Ascii line) :
    lines.insertionSort UnitsLe = lines.insertionSort (· ≤ ·) :=
  insertionSort_congr fun first inside second inside' =>
    unitsLe_iff (ascii first inside) (ascii second inside')

end Idsm.Foundation
