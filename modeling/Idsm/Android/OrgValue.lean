import Idsm.Android.SignedBundle

/-! The documented accessors of org.json over the values that its parser builds. The
parser, the writer and the conversions of Java's numbers stay parameters. -/

set_option autoImplicit false

namespace Idsm.Android

open Idsm.Json (Binary64)

/-- A number is a `Long`, or a `Double`, which may be no finite number. -/
inductive OrgValue where
  | null
  | boolean (value : Bool)
  | long (value : Int64)
  | double (value : Binary64)
  | nonFinite (text : String)
  | string (text : String)
  | array (items : List OrgValue)
  | object (members : List (String × OrgValue))
  deriving Repr

/-- `longOfText` and `intOfText` cast what `Double.parseDouble` reads; `write` and
`writeIndented` throw on numbers that are not finite. -/
structure Java where
  longOfText : String → Option Int
  intOfText : String → Option Int
  equalsIgnoreCase : String → String → Bool
  valueOf : OrgValue → String
  write : OrgValue → Option String
  writeIndented : OrgValue → Option String

/-- The cast of a double to an integer of `bits` bits stops at the type's bounds. -/
def castDouble (bits : Nat) (number : Binary64) : Int :=
  max (-2 ^ (bits - 1)) (min number.truncate (2 ^ (bits - 1) - 1))

namespace OrgValue

variable (java : Java)

def toLong : OrgValue → Option Int
  | .long value => some value.toInt
  | .double value => some (castDouble 64 value)
  | .nonFinite text => java.longOfText text
  | .string text => java.longOfText text
  | _ => none

def toInt : OrgValue → Option Int
  | .long value => some (value.toInt.bmod (2 ^ 32))
  | .double value => some (castDouble 32 value)
  | .nonFinite text => java.intOfText text
  | .string text => java.intOfText text
  | _ => none

def toBoolean : OrgValue → Option Bool
  | .boolean value => some value
  | .string text =>
      if java.equalsIgnoreCase "true" text then some true
      else if java.equalsIgnoreCase "false" text then some false
      else none
  | _ => none

def toText : OrgValue → String
  | .null => "null"
  | .boolean value => if value then "true" else "false"
  | .long value => toString value.toInt
  | .string text => text
  | value => java.valueOf value

def asArray : OrgValue → Option (List OrgValue)
  | .array items => some items
  | _ => none

def asObject : OrgValue → Option (List (String × OrgValue))
  | .object members => some members
  | _ => none

/-- Of two members with one name the later one counts. -/
def member? (members : List (String × OrgValue)) (name : String) : Option OrgValue :=
  (members.reverse.find? fun member => member.1 == name).map Prod.snd

end OrgValue

open OrgValue in
def documented (java : Java) (ofText : String → Except String (List (String × OrgValue))) :
    OrgJson where
  Object := List (String × OrgValue)
  Array := List OrgValue
  ofText := ofText
  getString object name := (member? object name).map (toText java)
  getLong object name := (member? object name).bind (toLong java)
  getInt object name := (member? object name).bind (toInt java)
  getBoolean object name := (member? object name).bind (toBoolean java)
  getJSONArray object name := (member? object name).bind asArray
  getJSONObject object name := (member? object name).bind asObject
  keys object := (object.map Prod.fst).eraseDups
  length := List.length
  stringAt items index := items[index]?.map (toText java)
  intAt items index := items[index]?.bind (toInt java)
  objectAt items index := items[index]?.bind asObject
  empty := []
  putString object name value := object ++ [(name, .string value)]
  putLong object name value := object ++ [(name, .long (.ofInt value))]
  putInts object name values := object ++ [(name, .array (values.map fun value =>
    .long (.ofInt value)))]
  text object := (java.write (.object object)).getD "null"
  indented object := java.writeIndented (.object object)

end Idsm.Android
