import Idsm.Managerd.Base64

/-! Which texts the decoder takes that no encoder writes. -/

set_option autoImplicit false

namespace Idsm.Managerd

open Idsm.Foundation

/-- Padding only ends the text, a padded third place has a padded fourth, and the bits that a
padded group leaves over are zero. -/
def Canonical : List UInt8 → Prop
  | [] => True
  | _ :: second :: third :: fourth :: rest =>
      (third = 61 ∨ fourth = 61 → rest = []) ∧
      (third = 61 → fourth = 61 ∧ (sextet second).getD 0 % 16 = 0) ∧
      (third ≠ 61 → fourth = 61 → (sextet third).getD 0 % 4 = 0) ∧ Canonical rest
  | _ => False

instance decidableCanonical : (text : List UInt8) → Decidable (Canonical text)
  | [] => isTrue trivial
  | [_] => isFalse id
  | [_, _] => isFalse id
  | [_, _, _] => isFalse id
  | _ :: second :: third :: fourth :: rest =>
      have : Decidable (Canonical rest) := decidableCanonical rest
      inferInstanceAs (Decidable ((third = 61 ∨ fourth = 61 → rest = []) ∧
        (third = 61 → fourth = 61 ∧ (sextet second).getD 0 % 16 = 0) ∧
        (third ≠ 61 → fourth = 61 → (sextet third).getD 0 % 4 = 0) ∧ Canonical rest))

private theorem sextet_lt {symbol : UInt8} {value : Nat} (digit : sextet symbol = some value) :
    value < 64 := by
  unfold sextet at digit
  split_ifs at digit <;> (obtain rfl := Option.some.inj digit; omega)

private theorem sextet_injective {symbol other : UInt8} {value : Nat}
    (digit : sextet symbol = some value) (otherDigit : sextet other = some value) :
    symbol = other := by
  rw [← UInt8.toNat_inj]
  unfold sextet at digit otherDigit
  simp only [← UInt8.toNat_inj] at digit otherDigit
  split_ifs at digit otherDigit <;> simp at digit otherDigit <;> omega

private theorem digit_of_sextet {symbol : UInt8} {value word : Nat}
    (digit : sextet symbol = some value) (same : word % 64 = value) :
    String.utf8EncodeChar (alphabetAt word) = [symbol] := by
  obtain ⟨written, bytes, value', -, -⟩ := alphabetAt_spec word
  rw [same] at value'
  rw [bytes, sextet_injective digit value']

private theorem byte_toNat {n shift : Nat} : (UInt8.ofNat (n / 2 ^ shift)).toNat =
    n / 2 ^ shift % 256 := UInt8.toNat_ofNat'

section Groups

variable {first second third fourth : UInt8} {group : List UInt8}

/-- The digits and the bytes of a group that is taken. -/
theorem decodeGroup_eq_some (taken : decodeGroup first second third fourth = some group) :
    ∃ a b c d, sextet first = some a ∧ sextet second = some b ∧
      (if third = 61 then some 0 else sextet third) = some c ∧
      (if fourth = 61 then some 0 else sextet fourth) = some d ∧
      group = UInt8.ofNat ((a * 2 ^ 18 + b * 2 ^ 12 + c * 2 ^ 6 + d) / 2 ^ 16) ::
        ((if third = 61 then []
            else [UInt8.ofNat ((a * 2 ^ 18 + b * 2 ^ 12 + c * 2 ^ 6 + d) / 2 ^ 8)]) ++
          (if fourth = 61 then []
            else [UInt8.ofNat ((a * 2 ^ 18 + b * 2 ^ 12 + c * 2 ^ 6 + d) / 2 ^ 0)])) := by
  rw [decodeGroup] at taken
  by_cases padded : third = 61 <;> by_cases ended : fourth = 61 <;>
    simp only [padded, ended, if_true, if_false, Option.bind_eq_bind, Option.bind_eq_some_iff,
      Option.bind_some] at taken ⊢
  · obtain ⟨a, firstValue, b, secondValue, bytes⟩ := taken
    exact ⟨a, b, 0, 0, firstValue, secondValue, rfl, rfl, (Option.some.inj bytes).symm⟩
  · obtain ⟨a, firstValue, b, secondValue, d, fourthValue, bytes⟩ := taken
    refine ⟨a, b, 0, d, firstValue, secondValue, rfl, fourthValue, ?_⟩
    rw [Nat.pow_zero, Nat.div_one]
    exact (Option.some.inj bytes).symm
  · obtain ⟨a, firstValue, b, secondValue, c, thirdValue, bytes⟩ := taken
    exact ⟨a, b, c, 0, firstValue, secondValue, thirdValue, rfl, (Option.some.inj bytes).symm⟩
  · obtain ⟨a, firstValue, b, secondValue, c, thirdValue, d, fourthValue, bytes⟩ := taken
    refine ⟨a, b, c, d, firstValue, secondValue, thirdValue, fourthValue, ?_⟩
    rw [Nat.pow_zero, Nat.div_one]
    exact (Option.some.inj bytes).symm

private theorem encode_full (plain : third ≠ 61) (filled : fourth ≠ 61)
    (taken : decodeGroup first second third fourth = some group) (later : List UInt8) :
    (encodeGroups (group ++ later)).flatMap String.utf8EncodeChar =
      first :: second :: third :: fourth ::
        (encodeGroups later).flatMap String.utf8EncodeChar := by
  obtain ⟨a, b, c, d, firstValue, secondValue, thirdValue, fourthValue, rfl⟩ :=
    decodeGroup_eq_some taken
  rw [if_neg plain] at thirdValue ⊢
  rw [if_neg filled] at fourthValue ⊢
  have bounds := And.intro (sextet_lt firstValue) (And.intro (sextet_lt secondValue)
    (And.intro (sextet_lt thirdValue) (sextet_lt fourthValue)))
  simp only [List.cons_append, List.nil_append, encodeGroups, List.flatMap_cons, byte_toNat]
  rw [digit_of_sextet firstValue (by omega), digit_of_sextet secondValue (by omega),
    digit_of_sextet thirdValue (by omega), digit_of_sextet fourthValue (by omega)]
  rfl

private theorem encode_two (plain : third ≠ 61) (unused : (sextet third).getD 0 % 4 = 0)
    (taken : decodeGroup first second third 61 = some group) :
    (encodeGroups group).flatMap String.utf8EncodeChar = [first, second, third, 61] := by
  obtain ⟨a, b, c, d, firstValue, secondValue, thirdValue, fourthValue, rfl⟩ :=
    decodeGroup_eq_some taken
  rw [if_neg plain] at thirdValue ⊢
  rw [if_pos rfl] at fourthValue ⊢
  rw [thirdValue, Option.getD_some] at unused
  obtain rfl := Option.some.inj fourthValue
  have bounds := And.intro (sextet_lt firstValue) (And.intro (sextet_lt secondValue)
    (sextet_lt thirdValue))
  simp only [List.cons_append, List.nil_append, encodeGroups, List.flatMap_cons, byte_toNat]
  rw [digit_of_sextet firstValue (by omega), digit_of_sextet secondValue (by omega),
    digit_of_sextet thirdValue (by omega)]
  rfl

private theorem encode_one (unused : (sextet second).getD 0 % 16 = 0)
    (taken : decodeGroup first second 61 61 = some group) :
    (encodeGroups group).flatMap String.utf8EncodeChar = [first, second, 61, 61] := by
  obtain ⟨a, b, c, d, firstValue, secondValue, thirdValue, fourthValue, rfl⟩ :=
    decodeGroup_eq_some taken
  simp only [if_true] at thirdValue fourthValue ⊢
  rw [secondValue, Option.getD_some] at unused
  obtain rfl := Option.some.inj thirdValue
  obtain rfl := Option.some.inj fourthValue
  have bounds := And.intro (sextet_lt firstValue) (sextet_lt secondValue)
  simp only [List.append_nil, encodeGroups, List.flatMap_cons, byte_toNat]
  rw [digit_of_sextet firstValue (by omega), digit_of_sextet secondValue (by omega)]
  rfl

end Groups

theorem encode_decoded {text data : List UInt8} (decoded : base64Decode text = some data)
    (canonical : Canonical text) : utf8 (base64Encode data) = text := by
  rw [base64Encode, utf8, String.toList_ofList]
  fun_induction Canonical text generalizing data with
  | case1 =>
      obtain rfl := Option.some.inj decoded
      rfl
  | case2 first second third fourth rest ih =>
      obtain ⟨ended, padded, leftOver, later⟩ := canonical
      simp only [base64Decode, Option.bind_eq_bind, Option.bind_eq_some_iff] at decoded
      obtain ⟨group, taken, others, decodedRest, bytes⟩ := decoded
      obtain rfl := Option.some.inj bytes
      have laterText := ih decodedRest later
      by_cases third61 : third = 61
      · obtain ⟨rfl, unused⟩ := padded third61
        obtain rfl := ended (.inl third61)
        obtain rfl := third61
        obtain rfl := Option.some.inj decodedRest
        rw [List.append_nil]
        exact encode_one unused taken
      · by_cases fourth61 : fourth = 61
        · obtain rfl := ended (.inr fourth61)
          have unused := leftOver third61 fourth61
          obtain rfl := fourth61
          obtain rfl := Option.some.inj decodedRest
          rw [List.append_nil]
          exact encode_two third61 unused taken
        · rw [encode_full third61 fourth61 taken, laterText]
  | case3 => exact absurd canonical id

theorem canonical_encodeGroups (data : List UInt8) :
    Canonical ((encodeGroups data).flatMap String.utf8EncodeChar) := by
  have padding : String.utf8EncodeChar '=' = [61] := by decide
  fun_induction encodeGroups data with
  | case1 => trivial
  | case2 a n =>
      obtain ⟨first, firstBytes, -⟩ := alphabetAt_spec (n / 2 ^ 18)
      obtain ⟨second, secondBytes, secondValue, -⟩ := alphabetAt_spec (n / 2 ^ 12)
      simp only [List.flatMap_cons, List.flatMap_nil, firstBytes, secondBytes, padding,
        List.cons_append, List.nil_append]
      refine ⟨fun _ => rfl, fun _ => ⟨rfl, ?_⟩, fun plain => absurd rfl plain, trivial⟩
      rw [secondValue, Option.getD_some]
      omega
  | case3 a b n =>
      obtain ⟨first, firstBytes, -⟩ := alphabetAt_spec (n / 2 ^ 18)
      obtain ⟨second, secondBytes, -⟩ := alphabetAt_spec (n / 2 ^ 12)
      obtain ⟨third, thirdBytes, thirdValue, thirdUsed, -⟩ := alphabetAt_spec (n / 2 ^ 6)
      simp only [List.flatMap_cons, List.flatMap_nil, firstBytes, secondBytes, thirdBytes, padding,
        List.cons_append, List.nil_append]
      refine ⟨fun _ => rfl, fun padded => absurd padded thirdUsed, fun _ _ => ?_, trivial⟩
      rw [thirdValue, Option.getD_some]
      omega
  | case4 a b c rest n ih =>
      obtain ⟨first, firstBytes, -⟩ := alphabetAt_spec (n / 2 ^ 18)
      obtain ⟨second, secondBytes, -⟩ := alphabetAt_spec (n / 2 ^ 12)
      obtain ⟨third, thirdBytes, -, thirdUsed, -⟩ := alphabetAt_spec (n / 2 ^ 6)
      obtain ⟨fourth, fourthBytes, -, fourthUsed, -⟩ := alphabetAt_spec n
      simp only [List.flatMap_cons, firstBytes, secondBytes, thirdBytes, fourthBytes,
        List.cons_append, List.nil_append]
      exact ⟨fun padded => absurd padded (not_or.mpr ⟨thirdUsed, fourthUsed⟩),
        fun padded => absurd padded thirdUsed, fun _ padded => absurd padded fourthUsed, ih⟩

/-- What was encoded is decoded, and a decoded text is the encoding of its bytes exactly when it
is canonical. -/
theorem base64_canonical_iff (bytes text : List UInt8) :
    base64Decode (utf8 (base64Encode bytes)) = some bytes ∧
      ∀ data, base64Decode text = some data →
        (utf8 (base64Encode data) = text ↔ Canonical text) := by
  refine ⟨base64Decode_base64Encode bytes, fun data decoded => ⟨?_, encode_decoded decoded⟩⟩
  rintro rfl
  rw [base64Encode, utf8, String.toList_ofList]
  exact canonical_encodeGroups data

theorem base64_canonical_iff_sample :
    base64Decode (utf8 (base64Encode [0])) = some [0] ∧
      (utf8 (base64Encode [0]) = [65, 65, 61, 61] ↔ Canonical [65, 65, 61, 61]) :=
  ⟨(base64_canonical_iff [0] []).1, (base64_canonical_iff [0] [65, 65, 61, 61]).2 [0] (by decide)⟩

/-- `AB==` has a bit left over, and decodes like `AA==`. -/
theorem left_over_bits_taken :
    ¬ ∀ text data, base64Decode text = some data → utf8 (base64Encode data) = text := by
  intro unique
  have same := unique [65, 66, 61, 61] [0] (by decide)
  exact absurd same (by decide)

end Idsm.Managerd
