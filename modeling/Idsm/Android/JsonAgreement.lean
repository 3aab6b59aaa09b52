import Idsm.Android.OrgValue

/-! When a value of the C++ library and one of org.json are the same JSON value: numbers by
what they denote, objects by the member each name finds. -/

set_option autoImplicit false

namespace Idsm.Json

/-- The number without its fraction. -/
def wholePart (number : ℚ) : Int := number.num.tdiv number.den

@[simp] theorem wholePart_intCast (number : Int) : wholePart (number : ℚ) = number := by
  simp [wholePart]

theorem wholePart_div (numerator : Int) {denominator : Nat} (positive : 0 < denominator) :
    wholePart ((numerator : ℚ) / (denominator : ℚ)) = numerator.tdiv denominator := by
  obtain ⟨factor, top, bottom⟩ : ∃ factor : Int,
      numerator = factor * ((numerator : ℚ) / (denominator : ℚ)).num ∧
        (denominator : Int) = factor * (((numerator : ℚ) / (denominator : ℚ)).den : Int) :=
    Rat.num_den_mk (by omega) (by simp [Rat.divInt_eq_div])
  have productPositive : 0 < factor * (((numerator : ℚ) / (denominator : ℚ)).den : Int) := by
    rw [← bottom]
    exact_mod_cast positive
  have factorPositive : 0 < factor :=
    pos_of_mul_pos_left productPositive (Int.natCast_nonneg _)
  calc wholePart ((numerator : ℚ) / (denominator : ℚ))
      = (factor * ((numerator : ℚ) / (denominator : ℚ)).num).tdiv
          (factor * (((numerator : ℚ) / (denominator : ℚ)).den : Int)) :=
        (Int.mul_tdiv_mul_of_pos _ _ factorPositive).symm
    _ = numerator.tdiv denominator := by rw [← top, ← bottom]

namespace Binary64

def toRat (number : Binary64) : ℚ := number.significand * 2 ^ number.exponent

theorem truncate_eq (number : Binary64) : number.truncate = wholePart number.toRat := by
  rw [truncate, toRat]
  split
  next natural =>
    obtain ⟨exponent, found⟩ := Int.eq_ofNat_of_zero_le natural
    rw [found, Int.toNat_natCast, zpow_natCast]
    exact_mod_cast (wholePart_intCast (number.significand * 2 ^ exponent)).symm
  next negative =>
    obtain ⟨exponent, found⟩ := Int.eq_ofNat_of_zero_le (by omega : 0 ≤ -number.exponent)
    have inverse : number.exponent = -(exponent : ℤ) := by omega
    rw [found, Int.toNat_natCast, inverse, zpow_neg, zpow_natCast, ← div_eq_mul_inv]
    exact_mod_cast (wholePart_div number.significand (Nat.two_pow_pos exponent)).symm

end Binary64

namespace Value

/-- What a number denotes. -/
def number? : Value → Option ℚ
  | .unsigned value => some value.toNat
  | .integer value => some value.toInt
  | .float value => some value.toRat
  | _ => none

theorem number?_eq_none_or {value : Value} (arithmetic : value.isArithmetic = true) :
    (∃ flag, value = .boolean flag) ∨ ∃ number, value.number? = some number := by
  cases value with
  | boolean flag => exact .inl ⟨flag, rfl⟩
  | unsigned whole => exact .inr ⟨_, rfl⟩
  | integer whole => exact .inr ⟨_, rfl⟩
  | float double => exact .inr ⟨_, rfl⟩
  | null => exact nomatch arithmetic
  | string text => exact nomatch arithmetic
  | array items => exact nomatch arithmetic
  | object members => exact nomatch arithmetic

/-- The C++ library drops the fraction of a number whose whole part fits. -/
theorem getLongLong_of_number {value : Value} {number : ℚ} (denoted : value.number? = some number)
    (low : -2 ^ 63 ≤ wholePart number) (high : wholePart number < 2 ^ 63) :
    value.getLongLong = .ok (wholePart number) := by
  cases value with
  | unsigned whole =>
      cases denoted
      rw [← Int.cast_natCast, wholePart_intCast] at low high ⊢
      exact congrArg Except.ok (Int.bmod_eq_of_le (by omega) (by omega))
  | integer whole =>
      cases denoted
      rw [wholePart_intCast] at low high ⊢
      exact congrArg Except.ok (Int.bmod_eq_of_le (by omega) (by omega))
  | float double =>
      cases denoted
      rw [← Binary64.truncate_eq] at low high ⊢
      exact congrArg Except.ok (if_pos ⟨low, high⟩)
  | null => exact nomatch denoted
  | boolean flag => exact nomatch denoted
  | string text => exact nomatch denoted
  | array items => exact nomatch denoted
  | object members => exact nomatch denoted

end Value

end Idsm.Json

namespace Idsm.Android

open Idsm.Json (Value wholePart lookup)

namespace OrgValue

/-- What a number denotes, if it is a finite one. -/
def number? : OrgValue → Option ℚ
  | .long value => some value.toInt
  | .double value => some value.toRat
  | _ => none

/-- The cast to `Long` stops at the type's bounds. -/
theorem toLong_of_number (java : Java) {value : OrgValue} {number : ℚ}
    (denoted : value.number? = some number) :
    value.toLong java = some (max (-2 ^ 63) (min (wholePart number) (2 ^ 63 - 1))) := by
  cases value with
  | long whole =>
      cases denoted
      have low := whole.le_toInt
      have high := whole.toInt_lt
      rw [Json.wholePart_intCast]
      simp only [toLong, Option.some.injEq]
      omega
  | double double =>
      cases denoted
      rw [← Json.Binary64.truncate_eq]
      rfl
  | null => exact nomatch denoted
  | boolean flag => exact nomatch denoted
  | nonFinite text => exact nomatch denoted
  | string text => exact nomatch denoted
  | array items => exact nomatch denoted
  | object members => exact nomatch denoted

mutual

/-- No number in the value is `NaN` or infinite. -/
def finite : OrgValue → Bool
  | .nonFinite _ => false
  | .array items => finiteItems items
  | .object members => finiteMembers members
  | _ => true

def finiteItems : List OrgValue → Bool
  | [] => true
  | item :: rest => finite item && finiteItems rest

/-- A member that a later one replaces does not count. -/
def finiteMembers : List (String × OrgValue) → Bool
  | [] => true
  | (name, value) :: rest =>
      (rest.any (fun member => member.1 == name) || finite value) && finiteMembers rest

end

theorem finiteItems_iff {items : List OrgValue} :
    finiteItems items = true ↔ ∀ item ∈ items, item.finite = true := by
  induction items with
  | nil => simp [finiteItems]
  | cons item rest ih => simp [finiteItems, ih]

end OrgValue

/-- A value of either library for one JSON value. -/
inductive SameJson : Value → OrgValue → Prop
  | null : SameJson .null .null
  | boolean (flag : Bool) : SameJson (.boolean flag) (.boolean flag)
  | number {value : Value} {other : OrgValue} {number : ℚ} (denoted : value.number? = some number)
      (denotedToo : other.number? = some number) : SameJson value other
  | string (text : String) : SameJson (.string text) (.string text)
  | array {items : List Value} {others : List OrgValue}
      (same : List.Forall₂ SameJson items others) : SameJson (.array items) (.array others)
  | object {members : List (String × Value)} {others : List (String × OrgValue)}
      (same : ∀ key, Option.Rel SameJson (lookup key members) (OrgValue.member? others key)) :
      SameJson (.object members) (.object others)

namespace SameJson

theorem string_iff {text other : String} : SameJson (.string text) (.string other) ↔ text = other := by
  constructor
  · intro same
    cases same with
    | number denoted denotedToo => exact nomatch denoted
    | string => rfl
  · rintro rfl
    exact .string text

theorem integer_iff {value other : Int64} :
    SameJson (.integer value) (.long other) ↔ value.toInt = other.toInt := by
  constructor
  · intro same
    cases same with
    | number denoted denotedToo =>
        cases denoted
        exact_mod_cast (Option.some.inj denotedToo).symm
  · intro same
    refine .number rfl ?_
    rw [OrgValue.number?, same]

theorem member {members : List (String × Value)} {others : List (String × OrgValue)}
    (same : SameJson (.object members) (.object others)) (key : String) :
    Option.Rel SameJson (lookup key members) (OrgValue.member? others key) := by
  cases same with
  | number denoted denotedToo => exact nomatch denoted
  | object same => exact same key

/-- A text is one text for both, whatever the accessors make of other kinds. -/
theorem getString {value : Value} {other : OrgValue} (same : SameJson value other) {text : String}
    (read : value.getString = .ok text) (java : Java) : other.toText java = text := by
  cases same with
  | string text => exact Except.ok.inj read
  | null => exact nomatch read
  | boolean flag => exact nomatch read
  | array items => exact nomatch read
  | object members => exact nomatch read
  | number denoted denotedToo =>
      cases value with
      | string text => exact nomatch denoted
      | null => exact nomatch read
      | boolean flag => exact nomatch read
      | unsigned whole => exact nomatch read
      | integer whole => exact nomatch read
      | float double => exact nomatch read
      | array items => exact nomatch read
      | object members => exact nomatch read

/-- A value that both read as an integer is a number for both. -/
theorem number_of_reads {value : Value} {other : OrgValue} (same : SameJson value other)
    (arithmetic : value.isArithmetic = true) {java : Java} {long : Int}
    (read : other.toLong java = some long) :
    ∃ number, value.number? = some number ∧ other.number? = some number := by
  cases same with
  | number denoted denotedToo => exact ⟨_, denoted, denotedToo⟩
  | boolean flag => exact nomatch read
  | null => exact nomatch arithmetic
  | string text => exact nomatch arithmetic
  | array items => exact nomatch arithmetic
  | object members => exact nomatch arithmetic

end SameJson

end Idsm.Android
