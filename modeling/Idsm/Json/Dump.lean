import Idsm.Foundation.Text
import Idsm.Json.Value

/-! Serializers of JSON values. They share the layout and differ in how they write
literals and numbers. -/

set_option autoImplicit false

namespace Idsm.Json

open Idsm.Foundation

/-- One character of a string literal, as the serializer writes it. -/
def escaped (c : Char) : List Char :=
  if c.toNat = 0x08 then "\\b".toList
  else if c.toNat = 0x09 then "\\t".toList
  else if c.toNat = 0x0A then "\\n".toList
  else if c.toNat = 0x0C then "\\f".toList
  else if c.toNat = 0x0D then "\\r".toList
  else if c.toNat = 0x22 then "\\\"".toList
  else if c.toNat = 0x5C then "\\\\".toList
  else if c.toNat ≤ 0x1F then
    "\\u00".toList ++ [hexDigit (c.toNat / 16), hexDigit c.toNat]
  else [c]

def quote (text : String) : String :=
  "\"" ++ String.ofList (text.toList.flatMap escaped) ++ "\""

/-- How a serializer writes literals and numbers, and its indentation when it is not
compact. -/
structure Printer where
  literal : String → String
  floatText : Binary64 → String
  step : Option Nat

section Dump

variable (printer : Printer)

/-- The line break and indentation before a piece. -/
def breakText (level : Nat) : String :=
  match printer.step with
  | none => ""
  | some width => "\n" ++ String.ofList (List.replicate (width * level) (Char.ofNat 32))

/-- Pieces between brackets; none leave the brackets together. -/
def bracketed (opening closing : String) (level : Nat) : List String → String
  | [] => opening ++ closing
  | piece :: pieces =>
      pieces.foldl (fun out later => out ++ "," ++ breakText printer (level + 1) ++ later)
        (opening ++ breakText printer (level + 1) ++ piece) ++ breakText printer level ++ closing

/-- A member of an object. -/
def memberText (member : String × String) : String :=
  printer.literal member.1 ++ (if printer.step.isSome then ": " else ":") ++ member.2

def objectText (level : Nat) (members : OrderedMap String String) : String :=
  bracketed printer "\x7b" "\x7d" level (members.entries.map (memberText printer))

mutual

def dumpAt : Nat → Value → String
  | _, .null => "null"
  | _, .boolean true => "true"
  | _, .boolean false => "false"
  | _, .unsigned value => toString value.toNat
  | _, .integer value => toString value.toInt
  | _, .float value => printer.floatText value
  | _, .string text => printer.literal text
  | level, .array items => bracketed printer "[" "]" level (dumpItems (level + 1) items)
  | level, .object members => objectText printer level (.ofList (dumpMembers (level + 1) members))

def dumpItems : Nat → List Value → List String
  | _, [] => []
  | level, item :: rest => dumpAt level item :: dumpItems level rest

/-- The dumped values stay in the document's order, so the later of two members
with one name still counts. -/
def dumpMembers : Nat → List (String × Value) → List (String × String)
  | _, [] => []
  | level, (name, value) :: rest => (name, dumpAt level value) :: dumpMembers level rest

end

end Dump

/-- The C++ library's `dump()` and, with an indentation, `dump(width)`. -/
def nlohmann (floatText : Binary64 → String) (step : Option Nat) : Printer :=
  ⟨quote, floatText, step⟩

def dump (floatText : Binary64 → String) (value : Value) (step : Option Nat) : String :=
  dumpAt (nlohmann floatText step) 0 value

end Idsm.Json
