import Idsm.Foundation.Text

/-! Byte strings that are UTF-8 texts. A text can be cut off either end of one without
harm, since every character has one leading byte. -/

set_option autoImplicit false

namespace Idsm.Foundation

def IsUtf8 (bytes : List UInt8) : Prop := ∃ text, utf8 text = bytes

theorem isUtf8_utf8 (text : String) : IsUtf8 (utf8 text) := ⟨text, rfl⟩

theorem isUtf8_iff_chars {bytes : List UInt8} :
    IsUtf8 bytes ↔ ∃ chars : List Char, chars.flatMap String.utf8EncodeChar = bytes := by
  constructor
  · rintro ⟨text, rfl⟩
    exact ⟨text.toList, rfl⟩
  · rintro ⟨chars, rfl⟩
    exact ⟨String.ofList chars, by rw [utf8, String.toList_ofList]⟩

theorem IsUtf8.append {left right : List UInt8} (first : IsUtf8 left) (second : IsUtf8 right) :
    IsUtf8 (left ++ right) := by
  obtain ⟨text, rfl⟩ := first
  obtain ⟨rest, rfl⟩ := second
  exact ⟨text ++ rest, utf8_append text rest⟩

theorem utf8EncodeChar_eq (c : Char) :
    ∃ first more, String.utf8EncodeChar c = first :: more ∧ first.IsUTF8FirstByte ∧
      ∀ byte ∈ more, ¬ byte.IsUTF8FirstByte := by
  cases encoded : String.utf8EncodeChar c with
  | nil => exact absurd encoded String.utf8EncodeChar_ne_nil
  | cons first more =>
      have leading : ∀ position (inside : position < (first :: more).length),
          ((first :: more)[position]).IsUTF8FirstByte ↔ position = 0 := by
        rw [← encoded]
        exact fun _ _ => UInt8.isUTF8FirstByte_getElem_utf8EncodeChar
      refine ⟨first, more, rfl, (leading 0 (by simp)).mpr rfl, ?_⟩
      intro byte member
      obtain ⟨position, inside, rfl⟩ := List.getElem_of_mem member
      exact fun isFirst => absurd ((leading (position + 1) (by simpa using inside)).mp isFirst)
        (by omega)

/-- Two characters before something, one text: the same character. -/
theorem utf8EncodeChar_cancel {c d : Char} {left right : List UInt8}
    (same : String.utf8EncodeChar c ++ left = String.utf8EncodeChar d ++ right) :
    c = d ∧ left = right := by
  have decoded : ∀ (c : Char) (rest : List UInt8),
      ByteArray.utf8DecodeChar? (String.utf8EncodeChar c ++ rest).toByteArray 0 = some c := by
    intro c rest
    rw [List.toByteArray_append, ← List.utf8Encode_singleton]
    exact List.utf8DecodeChar?_utf8Encode_singleton_append
  have equal := decoded c left
  rw [same, decoded d right, Option.some.injEq] at equal
  subst equal
  exact ⟨rfl, List.append_cancel_left same⟩

theorem utf8EncodeChar_cancel_right {c d : Char} {left right : List UInt8}
    (same : left ++ String.utf8EncodeChar c = right ++ String.utf8EncodeChar d) :
    left = right := by
  obtain ⟨first, more, encoded, leading, following⟩ := utf8EncodeChar_eq c
  obtain ⟨first', more', encoded', leading', following'⟩ := utf8EncodeChar_eq d
  rw [encoded, encoded', List.append_eq_append_iff] at same
  rcases same with ⟨offset, rfl, shape⟩ | ⟨offset, rfl, shape⟩
  · cases offset with
    | nil => exact (List.append_nil left).symm
    | cons byte offset =>
        have inside : first' ∈ more := by
          rw [(List.cons.inj shape).2]
          simp
        exact absurd leading' (following first' inside)
  · cases offset with
    | nil => exact List.append_nil right
    | cons byte offset =>
        have inside : first ∈ more' := by
          rw [(List.cons.inj shape).2]
          simp
        exact absurd leading (following' first inside)

theorem isUtf8_append_left {text : String} {bytes : List UInt8} :
    IsUtf8 (utf8 text ++ bytes) ↔ IsUtf8 bytes := by
  refine ⟨fun joint => ?_, (isUtf8_utf8 text).append⟩
  obtain ⟨chars, shape⟩ := isUtf8_iff_chars.1 joint
  rw [utf8] at shape
  refine isUtf8_iff_chars.2 ?_
  generalize text.toList = front at shape
  induction front generalizing chars with
  | nil => exact ⟨chars, shape⟩
  | cons c rest ih =>
      obtain ⟨first, more, encoded, _⟩ := utf8EncodeChar_eq c
      cases chars with
      | nil =>
          rw [List.flatMap_cons, encoded] at shape
          exact absurd shape (by simp)
      | cons d chars =>
          rw [List.flatMap_cons, List.flatMap_cons, List.append_assoc] at shape
          exact ih chars (utf8EncodeChar_cancel shape).2

theorem isUtf8_append_right {text : String} {bytes : List UInt8} :
    IsUtf8 (bytes ++ utf8 text) ↔ IsUtf8 bytes := by
  refine ⟨fun joint => ?_, fun first => first.append (isUtf8_utf8 text)⟩
  obtain ⟨chars, shape⟩ := isUtf8_iff_chars.1 joint
  rw [utf8] at shape
  refine isUtf8_iff_chars.2 ?_
  generalize text.toList = behind at shape
  induction behind using List.reverseRecOn generalizing chars with
  | nil => exact ⟨chars, shape.trans (List.append_nil bytes)⟩
  | append_singleton rest c ih =>
      obtain ⟨first, more, encoded, _⟩ := utf8EncodeChar_eq c
      rw [List.flatMap_append, List.flatMap_singleton, ← List.append_assoc] at shape
      cases chars using List.reverseRecOn with
      | nil =>
          rw [encoded] at shape
          exact absurd shape (by simp)
      | append_singleton chars d =>
          rw [List.flatMap_append, List.flatMap_singleton] at shape
          exact ih chars (utf8EncodeChar_cancel_right shape)

/-- A first byte below 32 is a character by itself. -/
theorem utf8EncodeChar_control {byte : UInt8} (control : byte ≤ 0x1F) :
    String.utf8EncodeChar (Char.ofUInt8 byte) = [byte] := by
  have each : ∀ value < 32, String.utf8EncodeChar (Char.ofUInt8 (UInt8.ofNat value)) =
      [UInt8.ofNat value] := by decide
  have small : byte.toNat < 32 := by
    have bound : byte.toNat ≤ 31 := UInt8.le_iff_toNat_le.mp control
    omega
  have same := each byte.toNat small
  rwa [UInt8.ofNat_toNat] at same

end Idsm.Foundation
