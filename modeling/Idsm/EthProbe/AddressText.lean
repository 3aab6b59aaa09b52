import Idsm.EthProbe.Bytes
import Idsm.EthProbe.GeoIp
import Idsm.Foundation.CText

/-! The parsers of addresses and prefixes: those of `rules.cpp`, `geoip.cpp` and the event
bridge, `eve.cpp`. -/

set_option autoImplicit false

namespace Idsm.EthProbe

open Idsm.Foundation

/-- The outcome of a parser; a write outside of the sixteen bytes is one of its own. -/
inductive Parsed (ε α : Type) where
  | rejected (err : ε)
  | outOfBounds
  | accepted (value : α)
  deriving DecidableEq, Repr

section Ipv4

/-- `%u` of `sscanf`. -/
def scanUnsigned (text : List UInt8) : Option (UInt32 × List UInt8) :=
  (strtoul 10 text).map fun (value, rest) => (value.toUInt32, rest)

/-- So many more numbers, with dots in front of them. -/
def scanDotted : (more : Nat) → List UInt8 → Option (List UInt32 × List UInt8)
  | 0, text => (scanUnsigned text).map fun (value, rest) => ([value], rest)
  | more + 1, text =>
      match scanUnsigned text with
      | some (value, 46 :: rest) =>
          (scanDotted more rest).map fun (values, rest) => (value :: values, rest)
      | _ => none

/-- `parse_ipv4`, which the three sources write alike. -/
def parseIpv4Text (s : List UInt8) : Option (List UInt8) :=
  match scanDotted 3 (cString s) with
  | some (values, []) =>
      if values.all (· ≤ 255) then some (values.map (·.toUInt8)) else none
  | _ => none

end Ipv4

section Ipv6

/-- The stores of a loop that counts the index up. -/
def storeAt (addr : List UInt8) (idx : UInt64) : List UInt8 → Option (List UInt8)
  | [] => some addr
  | byte :: rest =>
      if idx.toNat < addr.length then storeAt (addr.set idx.toNat byte) (idx + 1) rest else none

/-- The groups in front at the start of the address, and those behind at its end. -/
def storeGroups (head tail : List UInt16) : Parsed Unit (List UInt8) :=
  match storeAt (List.replicate 16 0) 0 (head.flatMap be16) with
  | none => .outOfBounds
  | some addr =>
      match storeAt addr (16 - UInt64.ofNat tail.length * 2) (tail.flatMap be16) with
      | none => .outOfBounds
      | some addr => .accepted addr

/-- A group of `rules.cpp`. -/
def readGroup (g : List UInt8) : Option UInt16 :=
  if g = [] ∨ 4 < g.length then none
  else
    match strtol 16 (cString g) with
    | none => none
    | some (v, rest) =>
        if rest ≠ [] ∨ v < 0 ∨ 0xFFFF < v then none else some (UInt16.ofInt v)

def parseGroups (part : List UInt8) : Option (List UInt16) := (fields 58 part).mapM readGroup

/-- `parse_ipv6` of `rules.cpp`. -/
def parseIpv6Text (s : List UInt8) : Parsed Unit (List UInt8) :=
  if 58 ∉ s then .rejected ()
  else
    match cutAtTwo 58 s with
    | some (before, behind) =>
        if (cutAtTwo 58 behind).isSome then .rejected ()
        else
          match parseGroups before, parseGroups behind with
          | some head, some tail =>
              if 14 < head.length + tail.length then .rejected () else storeGroups head tail
          | _, _ => .rejected ()
    | none =>
        match parseGroups s with
        | some head => if head.length = 8 then storeGroups head [] else .rejected ()
        | none => .rejected ()

/-- A group of `geoip.cpp` and `eve.cpp`; where no number is read the end pointer stays at the
start. -/
def readPart (tok : List UInt8) : Option UInt16 :=
  if tok = [] ∨ 4 < tok.length then none
  else
    match strtol 16 (cString tok) with
    | none => if cString tok = [] then some 0 else none
    | some (v, rest) => if rest ≠ [] ∨ 0xFFFF < v then none else some (UInt16.ofInt v)

def parsePart (s : List UInt8) : Option (List UInt16) :=
  if s = [] then some [] else (s.splitOn 58).mapM readPart

/-- The branch with a colon, which `geoip.cpp` and `eve.cpp` write alike. -/
def parseParts (a : List UInt8) : Parsed Unit (List UInt8) :=
  match cutAtTwo 58 a with
  | some (before, behind) =>
      match parsePart before, parsePart behind with
      | some head, some tail => storeGroups head tail
      | _, _ => .rejected ()
  | none =>
      match parsePart a with
      | some head => if head.length = 8 then storeGroups head [] else .rejected ()
      | none => .rejected ()

/-- The address of the event bridge, of either family. -/
def ipLiteralToBytes (s : List UInt8) : Parsed Unit (List UInt8) :=
  if 58 ∉ s then
    match parseIpv4Text s with
    | some bytes => .accepted (ipv4Field bytes)
    | none => .rejected ()
  else parseParts s

end Ipv6

section Cidrs

/-- `parse_u32`. -/
def parseU32 (s : List UInt8) : Option UInt32 :=
  if s = [] then none
  else
    match strtoul 10 (cString s) with
    | some (v, []) => some v.toUInt32
    | _ => none

/-- The prefix that stands for none. -/
def noPrefix : UInt32 := 0xFFFFFFFF

/-- The prefix of an address, which may not be longer than it. -/
def checkPrefix (plen : UInt32) (addr : List UInt8) (v6 : Bool) : Parsed Unit Cidr :=
  let bits : UInt32 := if v6 then 128 else 32
  let plen := if plen = noPrefix then bits else plen
  if bits < plen then .rejected () else .accepted ⟨addr, plen.toNat, v6⟩

/-- `parse_cidr` of `rules.cpp`. -/
def parseCidr (tok : List UInt8) : Parsed Unit Cidr :=
  let (addr, behind) := cutAt 47 tok
  let plen :=
    match behind with
    | none => some noPrefix
    | some text => parseU32 text
  match plen with
  | none => .rejected ()
  | some plen =>
      if 58 ∈ addr then
        match parseIpv6Text addr with
        | .rejected err => .rejected err
        | .outOfBounds => .outOfBounds
        | .accepted bytes => checkPrefix plen bytes true
      else
        match parseIpv4Text addr with
        | none => .rejected ()
        | some bytes => checkPrefix plen (ipv4Field bytes) false

/-- `parse_addr_cidr` of `geoip.cpp`. -/
def parseAddrCidr (line : List UInt8) : Parsed Unit Cidr :=
  let (a, behind) := cutAt 47 line
  let plen :=
    match behind with
    | none => some noPrefix
    | some text =>
        match strtoul 10 (cString text) with
        | some (v, []) => some v.toUInt32
        | _ => none
  match plen with
  | none => .rejected ()
  | some plen =>
      if 58 ∈ a then
        match parseParts a with
        | .rejected err => .rejected err
        | .outOfBounds => .outOfBounds
        | .accepted bytes => checkPrefix plen bytes true
      else
        match parseIpv4Text a with
        | none => .rejected ()
        | some bytes => checkPrefix plen (ipv4Field bytes) false

end Cidrs

section Matchers

abbrev VarMap := List (List UInt8 × List UInt8)

def trim (s : List UInt8) : List UInt8 := (s.dropWhile isSpace).rdropWhile isSpace

/-- The reason why an address is refused, with the text that the message ends with. -/
inductive MatcherError where
  | undefinedVariable (tok : List UInt8)
  | badCidrInList (item : List UInt8)
  | badAddress (tok : List UInt8)
  /-- No message is set. -/
  | emptyList
  deriving DecidableEq, Repr

/-- The items of a list, up to the first that is none. -/
def parseItems : List (List UInt8) → Parsed MatcherError (List Cidr)
  | [] => .accepted []
  | item :: items =>
      match parseCidr (trim item) with
      | .rejected _ => .rejected (.badCidrInList item)
      | .outOfBounds => .outOfBounds
      | .accepted cidr =>
          match parseItems items with
          | .accepted cidrs => .accepted (cidr :: cidrs)
          | .rejected err => .rejected err
          | .outOfBounds => .outOfBounds

/-- A list in brackets or one CIDR. -/
def parseNets (negated : Bool) (tok : List UInt8) : Parsed MatcherError IpMatcher :=
  if tok.head? = some 91 ∧ tok.getLast? = some 93 then
    match parseItems (fields 44 (slice tok 1 (tok.length - 2))) with
    | .rejected err => .rejected err
    | .outOfBounds => .outOfBounds
    | .accepted cidrs =>
        if cidrs = [] then .rejected .emptyList else .accepted ⟨cidrs, false, negated⟩
  else
    match parseCidr tok with
    | .rejected _ => .rejected (.badAddress tok)
    | .outOfBounds => .outOfBounds
    | .accepted cidr => .accepted ⟨[cidr], false, negated⟩

/-- A variable stands for its text. -/
def parseVariable (vars : VarMap) (negated : Bool) (tok : List UInt8) :
    Parsed MatcherError IpMatcher :=
  match tok with
  | 36 :: name =>
      match vars.lookup name with
      | none => .rejected (.undefinedVariable tok)
      | some text => parseNets negated text
  | _ => parseNets negated tok

/-- `parse_ip_matcher`. -/
def parseIpMatcher (vars : VarMap) (tok : List UInt8) : Parsed MatcherError IpMatcher :=
  if tok = [97, 110, 121] then .accepted ⟨[], true, false⟩
  else
    match tok with
    | 33 :: tok => parseVariable vars true tok
    | tok => parseVariable vars false tok

end Matchers

end Idsm.EthProbe
