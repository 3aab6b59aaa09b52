import Idsm.Foundation.BlockHash

/-! SHA-256 as the standard FIPS 180-4 has it, for messages of whole bytes. The constants are
computed from the roots that the standard names. -/

set_option autoImplicit false

namespace Idsm.Foundation.Fips180

section Constants

/-- The greatest number of so many bits, on top of those found, whose power stays below. -/
def root (degree n : Nat) : (bits : Nat) → (found : Nat) → Nat
  | 0, found => found
  | bits + 1, found =>
      if (found + 2 ^ bits) ^ degree ≤ n then root degree n bits (found + 2 ^ bits)
      else root degree n bits found

theorem root_spec {degree n bits found : Nat} (below : found ^ degree ≤ n)
    (above : n < (found + 2 ^ bits) ^ degree) :
    root degree n bits found ^ degree ≤ n ∧ n < (root degree n bits found + 1) ^ degree := by
  induction bits generalizing found with
  | zero => exact ⟨below, above⟩
  | succ bits ih =>
      rw [root]
      by_cases small : (found + 2 ^ bits) ^ degree ≤ n
      · rw [if_pos small]
        apply ih small
        rwa [Nat.add_assoc, ← Nat.two_mul, ← Nat.pow_succ']
      · rw [if_neg small]
        exact ih below (Nat.lt_of_not_le small)

private theorem lt_of_pow_lt_pow {degree low high : Nat} (less : low ^ degree < high ^ degree) :
    low < high :=
  Nat.lt_of_not_le fun reversed => Nat.not_le.2 less (Nat.pow_le_pow_left reversed degree)

/-- The first 32 bits of the fractional part of a number's root. -/
def rootFraction (degree number : Nat) : UInt32 :=
  UInt32.ofNat (root degree (number * 2 ^ (32 * degree)) 40 0)

/-- The fraction, behind the root's whole part, is the greatest that stays below. -/
def IsRootFraction (degree number : Nat) (fraction : UInt32) : Prop :=
  let scaled := root degree number 8 0 * 2 ^ 32 + fraction.toNat
  scaled ^ degree ≤ number * 2 ^ (32 * degree) ∧ number * 2 ^ (32 * degree) < (scaled + 1) ^ degree

instance (degree number : Nat) (fraction : UInt32) :
    Decidable (IsRootFraction degree number fraction) := inferInstanceAs (Decidable (_ ∧ _))

theorem rootFraction_eq {degree number : Nat} {fraction : UInt32} (positive : 0 < degree)
    (small : number < 2 ^ (8 * degree)) (isFraction : IsRootFraction degree number fraction) :
    rootFraction degree number = fraction := by
  obtain ⟨below, above⟩ := isFraction
  have covered : number * 2 ^ (32 * degree) < (0 + 2 ^ 40) ^ degree := by
    rw [Nat.zero_add, ← Nat.pow_mul, show 40 * degree = 8 * degree + 32 * degree by omega,
      Nat.pow_add]
    exact Nat.mul_lt_mul_of_pos_right small (Nat.two_pow_pos _)
  obtain ⟨least, greatest⟩ := root_spec
    (show 0 ^ degree ≤ number * 2 ^ (32 * degree) by rw [Nat.zero_pow positive]; exact Nat.zero_le _)
    covered
  have upper := lt_of_pow_lt_pow (Nat.lt_of_le_of_lt least above)
  have lower := lt_of_pow_lt_pow (Nat.lt_of_le_of_lt below greatest)
  have bound := fraction.toNat_lt
  apply UInt32.toNat_inj.1
  rw [rootFraction, UInt32.toNat_ofNat']
  omega

/-- The first 64 prime numbers. -/
def primes : List Nat :=
  [2, 3, 5, 7, 11, 13, 17, 19, 23, 29, 31, 37, 41, 43, 47, 53,
    59, 61, 67, 71, 73, 79, 83, 89, 97, 101, 103, 107, 109, 113, 127, 131,
    137, 139, 149, 151, 157, 163, 167, 173, 179, 181, 191, 193, 197, 199, 211, 223,
    227, 229, 233, 239, 241, 251, 257, 263, 269, 271, 277, 281, 283, 293, 307, 311]

/-- The constants of the rounds, from cube roots. -/
def k (t : Nat) : UInt32 := rootFraction 3 (primes.getD t 0)

structure Words where
  a : UInt32
  b : UInt32
  c : UInt32
  d : UInt32
  e : UInt32
  f : UInt32
  g : UInt32
  h : UInt32
  deriving DecidableEq

/-- The initial hash value, from square roots. -/
def initial : Words where
  a := rootFraction 2 2
  b := rootFraction 2 3
  c := rootFraction 2 5
  d := rootFraction 2 7
  e := rootFraction 2 11
  f := rootFraction 2 13
  g := rootFraction 2 17
  h := rootFraction 2 19

end Constants

section Functions

variable (x y z : UInt32)

def rotr (n : UInt32) : UInt32 := x >>> n ||| x <<< (32 - n)

def shr (n : UInt32) : UInt32 := x >>> n

def ch : UInt32 := (x &&& y) ^^^ (~~~x &&& z)

def maj : UInt32 := (x &&& y) ^^^ (x &&& z) ^^^ (y &&& z)

def bigSigma0 : UInt32 := rotr x 2 ^^^ rotr x 13 ^^^ rotr x 22

def bigSigma1 : UInt32 := rotr x 6 ^^^ rotr x 11 ^^^ rotr x 25

def smallSigma0 : UInt32 := rotr x 7 ^^^ rotr x 18 ^^^ shr x 3

def smallSigma1 : UInt32 := rotr x 17 ^^^ rotr x 19 ^^^ shr x 10

end Functions

section Computation

/-- Word `t` of a block, the high byte first. -/
def messageWord (block : List UInt8) (t : Nat) : UInt32 :=
  (block.getD (4 * t) 0).toUInt32 <<< 24 ||| (block.getD (4 * t + 1) 0).toUInt32 <<< 16 |||
    (block.getD (4 * t + 2) 0).toUInt32 <<< 8 ||| (block.getD (4 * t + 3) 0).toUInt32

/-- The message schedule. -/
def schedule (block : List UInt8) (t : Nat) : UInt32 :=
  if t < 16 then messageWord block t
  else
    smallSigma1 (schedule block (t - 2)) + schedule block (t - 7) +
      smallSigma0 (schedule block (t - 15)) + schedule block (t - 16)

def round (block : List UInt8) (v : Words) (t : Nat) : Words :=
  let t1 := v.h + bigSigma1 v.e + ch v.e v.f v.g + k t + schedule block t
  let t2 := bigSigma0 v.a + maj v.a v.b v.c
  ⟨t1 + t2, v.a, v.b, v.c, v.d + t1, v.e, v.f, v.g⟩

/-- The next hash value. -/
def compress (value : Words) (block : List UInt8) : Words :=
  let v := (List.range 64).foldl (round block) value
  ⟨v.a + value.a, v.b + value.b, v.c + value.c, v.d + value.d,
    v.e + value.e, v.f + value.f, v.g + value.g, v.h + value.h⟩

/-- A number in eight bytes, the high one first. -/
def lengthBytes (number : Nat) : List UInt8 :=
  (List.range 8).map fun index => UInt8.ofNat (number / 2 ^ (56 - 8 * index))

/-- A one, the fewest zeros that leave room for the length, and the length in bits. -/
def pad (message : List UInt8) : List UInt8 :=
  message ++ [0x80] ++ List.replicate (paddingZeros message.length) 0 ++
    lengthBytes (8 * message.length)

/-- A word's bytes, the high one first. -/
def wordBytes (word : UInt32) : List UInt8 :=
  [(word >>> 24).toUInt8, (word >>> 16).toUInt8, (word >>> 8).toUInt8, word.toUInt8]

def digest (value : Words) : List UInt8 :=
  [value.a, value.b, value.c, value.d, value.e, value.f, value.g, value.h].flatMap wordBytes

def sha256 (message : List UInt8) : List UInt8 :=
  digest ((blocks 64 (pad message)).foldl compress initial)

end Computation

end Idsm.Foundation.Fips180
