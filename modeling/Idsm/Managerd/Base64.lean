import Idsm.Foundation.Text

/-! The Base64 codec of the signed payload lines: the standard alphabet with
padding and no line breaks. -/

set_option autoImplicit false

namespace Idsm.Managerd

open Idsm.Foundation

def kAlphabet : List Char :=
  "ABCDEFGHIJKLMNOPQRSTUVWXYZabcdefghijklmnopqrstuvwxyz0123456789+/".toList

/-- `kAlphabet[n & 63]`. -/
def alphabetAt (word : Nat) : Char := kAlphabet.getD (word % 64) '='

def encodeGroups : List UInt8 → List Char
  | [] => []
  | [a] =>
      let n := a.toNat * 2 ^ 16
      [alphabetAt (n / 2 ^ 18), alphabetAt (n / 2 ^ 12), '=', '=']
  | [a, b] =>
      let n := a.toNat * 2 ^ 16 + b.toNat * 2 ^ 8
      [alphabetAt (n / 2 ^ 18), alphabetAt (n / 2 ^ 12), alphabetAt (n / 2 ^ 6), '=']
  | a :: b :: c :: rest =>
      let n := a.toNat * 2 ^ 16 + b.toNat * 2 ^ 8 + c.toNat
      alphabetAt (n / 2 ^ 18) :: alphabetAt (n / 2 ^ 12) :: alphabetAt (n / 2 ^ 6) ::
        alphabetAt n :: encodeGroups rest

def base64Encode (data : List UInt8) : String := String.ofList (encodeGroups data)

/-- The decoder's `val`. -/
def sextet (c : UInt8) : Option Nat :=
  if 65 ≤ c.toNat ∧ c.toNat ≤ 90 then some (c.toNat - 65)
  else if 97 ≤ c.toNat ∧ c.toNat ≤ 122 then some (c.toNat - 97 + 26)
  else if 48 ≤ c.toNat ∧ c.toNat ≤ 57 then some (c.toNat - 48 + 52)
  else if c = 43 then some 62
  else if c = 47 then some 63
  else none

/-- One group of the decoder; either padding place may hold `=` by itself. -/
def decodeGroup (first second third fourth : UInt8) : Option (List UInt8) := do
  let pad2 := third = 61
  let pad1 := fourth = 61
  let a ← sextet first
  let b ← sextet second
  let c ← if pad2 then some 0 else sextet third
  let d ← if pad1 then some 0 else sextet fourth
  let n := a * 2 ^ 18 + b * 2 ^ 12 + c * 2 ^ 6 + d
  some (UInt8.ofNat (n / 2 ^ 16) ::
    ((if pad2 then [] else [UInt8.ofNat (n / 2 ^ 8)]) ++
      (if pad1 then [] else [UInt8.ofNat n])))

def base64Decode : List UInt8 → Option (List UInt8)
  | [] => some []
  | first :: second :: third :: fourth :: rest => do
      let group ← decodeGroup first second third fourth
      let later ← base64Decode rest
      some (group ++ later)
  | _ => none

/-- Every digit is one byte that decodes to its value and is neither padding
nor a line break. -/
theorem alphabetAt_spec (word : Nat) :
    ∃ symbol, String.utf8EncodeChar (alphabetAt word) = [symbol] ∧
      sextet symbol = some (word % 64) ∧ symbol ≠ 61 ∧ alphabetAt word ≠ '\n' := by
  have table : ∀ value : Fin 64,
      String.utf8EncodeChar (kAlphabet.getD value '=') =
          [(kAlphabet.getD value '=').toNat.toUInt8] ∧
        sextet (kAlphabet.getD value '=').toNat.toUInt8 = some value.val ∧
        (kAlphabet.getD value '=').toNat.toUInt8 ≠ 61 ∧ kAlphabet.getD value '=' ≠ '\n' := by
    decide +kernel
  exact ⟨_, table ⟨word % 64, Nat.mod_lt _ (by decide)⟩⟩

private theorem sextets_rejoin {n : Nat} (small : n < 2 ^ 24) :
    n / 2 ^ 18 % 64 * 2 ^ 18 + n / 2 ^ 12 % 64 * 2 ^ 12 + n / 2 ^ 6 % 64 * 2 ^ 6 + n % 64 = n := by
  omega

private theorem byte_of_word {n shift : Nat} {byte : UInt8}
    (value : n / 2 ^ shift % 256 = byte.toNat) : UInt8.ofNat (n / 2 ^ shift) = byte := by
  apply UInt8.toNat_inj.mp
  rw [UInt8.toNat_ofNat']
  exact value

section Groups

variable {n : Nat} {first second third fourth a b c : UInt8}
  (firstValue : sextet first = some (n / 2 ^ 18 % 64))
  (secondValue : sextet second = some (n / 2 ^ 12 % 64))

include firstValue secondValue

private theorem decodeGroup_full (packed : n = a.toNat * 2 ^ 16 + b.toNat * 2 ^ 8 + c.toNat)
    (thirdValue : sextet third = some (n / 2 ^ 6 % 64)) (thirdUsed : third ≠ 61)
    (fourthValue : sextet fourth = some (n % 64)) (fourthUsed : fourth ≠ 61) :
    decodeGroup first second third fourth = some [a, b, c] := by
  have bounds := And.intro a.toNat_lt (And.intro b.toNat_lt c.toNat_lt)
  have high : UInt8.ofNat (n / 2 ^ 16) = a := byte_of_word (by omega)
  have middle : UInt8.ofNat (n / 2 ^ 8) = b := byte_of_word (by omega)
  have low : UInt8.ofNat n = c := by
    have word : UInt8.ofNat (n / 2 ^ 0) = c := byte_of_word (by omega)
    simpa using word
  simp only [decodeGroup, firstValue, secondValue, thirdValue, fourthValue, thirdUsed, fourthUsed,
    if_false, Option.bind_eq_bind, Option.bind_some, sextets_rejoin (by omega : n < 2 ^ 24),
    high, middle, low, List.singleton_append]

private theorem decodeGroup_two (packed : n = a.toNat * 2 ^ 16 + b.toNat * 2 ^ 8)
    (thirdValue : sextet third = some (n / 2 ^ 6 % 64)) (thirdUsed : third ≠ 61) :
    decodeGroup first second third 61 = some [a, b] := by
  have bounds := And.intro a.toNat_lt b.toNat_lt
  have high : UInt8.ofNat (n / 2 ^ 16) = a := byte_of_word (by omega)
  have middle : UInt8.ofNat (n / 2 ^ 8) = b := byte_of_word (by omega)
  have empty : n % 64 = 0 := by omega
  have rejoined := sextets_rejoin (by omega : n < 2 ^ 24)
  rw [empty] at rejoined
  simp only [decodeGroup, firstValue, secondValue, thirdValue, thirdUsed, if_false, if_true,
    Option.bind_eq_bind, Option.bind_some, rejoined, high, middle, List.append_nil]

private theorem decodeGroup_one (packed : n = a.toNat * 2 ^ 16) :
    decodeGroup first second 61 61 = some [a] := by
  have bound := a.toNat_lt
  have high : UInt8.ofNat (n / 2 ^ 16) = a := byte_of_word (by omega)
  have empty : n / 2 ^ 6 % 64 = 0 ∧ n % 64 = 0 := by omega
  have rejoined := sextets_rejoin (by omega : n < 2 ^ 24)
  rw [empty.1, empty.2] at rejoined
  simp only [decodeGroup, firstValue, secondValue, if_true, Option.bind_eq_bind, Option.bind_some,
    List.append_nil]
  rw [rejoined, high]

end Groups

/-- Decoding gives back what was encoded. -/
theorem base64Decode_encodeGroups (data : List UInt8) :
    base64Decode ((encodeGroups data).flatMap String.utf8EncodeChar) = some data := by
  have padding : String.utf8EncodeChar '=' = [61] := by decide
  fun_induction encodeGroups data with
  | case1 => rfl
  | case2 a n =>
      obtain ⟨first, firstBytes, firstValue, -⟩ := alphabetAt_spec (n / 2 ^ 18)
      obtain ⟨second, secondBytes, secondValue, -⟩ := alphabetAt_spec (n / 2 ^ 12)
      simp only [List.flatMap_cons, List.flatMap_nil, firstBytes, secondBytes, padding,
        List.cons_append, List.nil_append, base64Decode,
        decodeGroup_one firstValue secondValue rfl]
      rfl
  | case3 a b n =>
      obtain ⟨first, firstBytes, firstValue, -⟩ := alphabetAt_spec (n / 2 ^ 18)
      obtain ⟨second, secondBytes, secondValue, -⟩ := alphabetAt_spec (n / 2 ^ 12)
      obtain ⟨third, thirdBytes, thirdValue, thirdUsed, -⟩ := alphabetAt_spec (n / 2 ^ 6)
      simp only [List.flatMap_cons, List.flatMap_nil, firstBytes, secondBytes, thirdBytes, padding,
        List.cons_append, List.nil_append, base64Decode,
        decodeGroup_two firstValue secondValue rfl thirdValue thirdUsed]
      rfl
  | case4 a b c rest n ih =>
      obtain ⟨first, firstBytes, firstValue, -⟩ := alphabetAt_spec (n / 2 ^ 18)
      obtain ⟨second, secondBytes, secondValue, -⟩ := alphabetAt_spec (n / 2 ^ 12)
      obtain ⟨third, thirdBytes, thirdValue, thirdUsed, -⟩ := alphabetAt_spec (n / 2 ^ 6)
      obtain ⟨fourth, fourthBytes, fourthValue, fourthUsed, -⟩ := alphabetAt_spec n
      simp only [List.flatMap_cons, firstBytes, secondBytes, thirdBytes, fourthBytes,
        List.cons_append, List.nil_append, base64Decode, ih,
        decodeGroup_full firstValue secondValue rfl thirdValue thirdUsed fourthValue fourthUsed]
      rfl

theorem base64Decode_base64Encode (data : List UInt8) :
    base64Decode (utf8 (base64Encode data)) = some data := by
  rw [base64Encode, utf8, String.toList_ofList, base64Decode_encodeGroups]

theorem base64Encode_injective {data data' : List UInt8}
    (same : base64Encode data = base64Encode data') : data = data' := by
  have decoded := base64Decode_base64Encode data
  rw [same, base64Decode_base64Encode] at decoded
  exact (Option.some.inj decoded).symm

/-- Encoded data never breaks a line. -/
theorem newline_notMem_base64Encode (data : List UInt8) :
    '\n' ∉ (base64Encode data).toList := by
  have digits : ∀ word, '\n' ≠ alphabetAt word := fun word =>
    (alphabetAt_spec word).choose_spec.2.2.2.symm
  rw [base64Encode, String.toList_ofList]
  fun_induction encodeGroups data with
  | case1 => simp
  | case2 a n => simp [digits]
  | case3 a b n => simp [digits]
  | case4 a b c rest n ih => simp [digits, ih]

end Idsm.Managerd
