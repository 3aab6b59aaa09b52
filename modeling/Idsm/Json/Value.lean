import Idsm.Foundation.OrderedMap

/-! JSON values as the C++ JSON library holds them, with its checked accessors.
An accessor that meets the wrong kind throws; here it returns the exception. -/

set_option autoImplicit false

namespace Idsm.Json

open Idsm.Foundation

/-- A finite double, `significand * 2 ^ exponent`. -/
structure Binary64 where
  significand : Int
  exponent : Int
  bounded : significand.natAbs < 2 ^ 53
  deriving DecidableEq, Repr

/-- The conversion to an integer drops the fraction. -/
def Binary64.truncate (number : Binary64) : Int :=
  if 0 ≤ number.exponent then number.significand * 2 ^ number.exponent.toNat
  else number.significand.tdiv (2 ^ (-number.exponent).toNat)

/-- Objects keep their members as the document lists them; of two members with
one name the later one counts. -/
inductive Value where
  | null
  | boolean (value : Bool)
  | unsigned (value : UInt64)
  | integer (value : Int64)
  | float (value : Binary64)
  | string (text : String)
  | array (items : List Value)
  | object (members : List (String × Value))
  deriving Repr

/-- The library's two exception classes with their numbers. -/
inductive Error where
  | typeError (id : Nat)
  | outOfRange (id : Nat)
  deriving DecidableEq, Repr

/-- Members by name, as the library's map keeps them. -/
def membersOf (members : List (String × Value)) : OrderedMap String Value :=
  .ofList members

def lookup (key : String) (members : List (String × Value)) : Option Value :=
  (membersOf members).find? key

@[simp] theorem lookup_nil (key : String) : lookup key [] = none := rfl

@[simp] theorem lookup_cons (key name : String) (value : Value) (rest : List (String × Value)) :
    lookup key ((name, value) :: rest) =
      (lookup key rest).or (if name = key then some value else none) :=
  OrderedMap.find?_ofList_cons (name, value) rest key

theorem lookup_append (key : String) (first second : List (String × Value)) :
    lookup key (first ++ second) = (lookup key second).or (lookup key first) := by
  rw [lookup, membersOf, OrderedMap.ofList, OrderedMap.insertAll_append,
    OrderedMap.find?_insertAll]
  rfl

namespace Value

def isString : Value → Bool
  | .string _ => true
  | _ => false

def isArray : Value → Bool
  | .array _ => true
  | _ => false

def isObject : Value → Bool
  | .object _ => true
  | _ => false

def isNumberUnsigned : Value → Bool
  | .unsigned _ => true
  | _ => false

def isNumberInteger : Value → Bool
  | .unsigned _ => true
  | .integer _ => true
  | _ => false

def isNumber : Value → Bool
  | .unsigned _ => true
  | .integer _ => true
  | .float _ => true
  | _ => false

/-- The kinds an integer conversion reads, besides numbers also truth values. -/
def isArithmetic : Value → Bool
  | .boolean _ => true
  | value => value.isNumber

def isBoolean : Value → Bool
  | .boolean _ => true
  | _ => false

/-- The member a lookup finds; a value that is no object has none. -/
def member? (value : Value) (key : String) : Option Value :=
  match value with
  | .object members => lookup key members
  | _ => none

/-- `value[key]` of a member known to be there. -/
def field (value : Value) (key : String) : Value := (value.member? key).getD .null

def contains (value : Value) (key : String) : Bool := (value.member? key).isSome

def getString : Value → Except Error String
  | .string text => .ok text
  | _ => .error (.typeError 302)

def getBool : Value → Except Error Bool
  | .boolean value => .ok value
  | _ => .error (.typeError 302)

/-- A double outside the target type converts to the type's least value. -/
def convertDouble (bits : Nat) (number : Binary64) : Int :=
  if -2 ^ (bits - 1) ≤ number.truncate ∧ number.truncate < 2 ^ (bits - 1) then number.truncate
  else -2 ^ (bits - 1)

/-- The conversion to a signed integer type of `bits` bits. -/
def getSigned (bits : Nat) : Value → Except Error Int
  | .boolean value => .ok (if value then 1 else 0)
  | .unsigned value => .ok ((value.toNat : Int).bmod (2 ^ bits))
  | .integer value => .ok (value.toInt.bmod (2 ^ bits))
  | .float value => .ok (convertDouble bits value)
  | _ => .error (.typeError 302)

def getLongLong : Value → Except Error Int := getSigned 64

theorem getLongLong_bounds {value : Value} {number : Int} (read : value.getLongLong = .ok number) :
    -2 ^ 63 ≤ number ∧ number < 2 ^ 63 := by
  have wrapped : ∀ whole : Int, -2 ^ 63 ≤ whole.bmod (2 ^ 64) ∧ whole.bmod (2 ^ 64) < 2 ^ 63 := by
    intro whole
    have low := Int.le_bmod (x := whole) (m := 2 ^ 64) (by decide)
    have high := Int.bmod_lt (x := whole) (m := 2 ^ 64) (by decide)
    omega
  rw [getLongLong] at read
  cases value with
  | boolean flag =>
      rw [← Except.ok.inj read]
      cases flag <;> simp
  | unsigned whole =>
      rw [← Except.ok.inj read]
      exact wrapped _
  | integer whole =>
      rw [← Except.ok.inj read]
      exact wrapped _
  | float double =>
      rw [← Except.ok.inj read]
      simp only [convertDouble]
      split <;> omega
  | null => exact nomatch read
  | string text => exact nomatch read
  | array items => exact nomatch read
  | object members => exact nomatch read

def getInt : Value → Except Error Int := getSigned 32

/-- `value(key, default)`: the default only stands in for a missing member. -/
def valueOr {α : Type} (value : Value) (key : String) (default : α)
    (get : Value → Except Error α) : Except Error α :=
  match value with
  | .object members =>
      match lookup key members with
      | some found => get found
      | none => .ok default
  | _ => .error (.typeError 306)

/-- The checked access of a member. -/
def «at» (value : Value) (key : String) : Except Error Value :=
  match value with
  | .object members =>
      match lookup key members with
      | some found => .ok found
      | none => .error (.outOfRange 403)
  | _ => .error (.typeError 304)

/-- `value[key] = entry`: null becomes an object, anything else throws. -/
def assign (value : Value) (key : String) (entry : Value) : Except Error Value :=
  match value with
  | .null => .ok (.object [(key, entry)])
  | .object members => .ok (.object (members ++ [(key, entry)]))
  | _ => .error (.typeError 305)

end Value

end Idsm.Json
