import Idsm.Json.Value

/-! The C++ library's parser. Its lexer and its parser are one function here; `strtod`
reads the numbers that are no 64-bit integers. -/

set_option autoImplicit false

namespace Idsm.Json

def isWhitespace (c : Char) : Bool := c = ' ' || c = '\t' || c = '\n' || c = '\r'

def skipWhitespace (text : List Char) : List Char := text.dropWhile isWhitespace

section Strings

def hexValue (c : Char) : Option Nat :=
  if '0' ≤ c ∧ c ≤ '9' then some (c.toNat - 48)
  else if 'A' ≤ c ∧ c ≤ 'F' then some (c.toNat - 55)
  else if 'a' ≤ c ∧ c ≤ 'f' then some (c.toNat - 87)
  else none

/-- `get_codepoint`, the four digits behind a `u`. -/
def getCodepoint : List Char → Option (Nat × List Char)
  | first :: second :: third :: fourth :: rest => do
      let a ← hexValue first
      let b ← hexValue second
      let c ← hexValue third
      let d ← hexValue fourth
      return (((a * 16 + b) * 16 + c) * 16 + d, rest)
  | _ => none

def simpleEscape (c : Char) : Option Char :=
  if c = '"' then some '"'
  else if c = '\\' then some '\\'
  else if c = '/' then some '/'
  else if c = 'b' then some (Char.ofNat 0x08)
  else if c = 'f' then some (Char.ofNat 0x0C)
  else if c = 'n' then some '\n'
  else if c = 'r' then some '\r'
  else if c = 't' then some '\t'
  else none

/-- A code unit behind `u`, with its partner when it opens a surrogate pair. -/
def unicodeEscape (text : List Char) : Option (Char × List Char) := do
  let (first, rest) ← getCodepoint text
  if 0xD800 ≤ first ∧ first ≤ 0xDBFF then
    match rest with
    | '\\' :: 'u' :: rest => do
        let (second, rest) ← getCodepoint rest
        if 0xDC00 ≤ second ∧ second ≤ 0xDFFF then
          some (Char.ofNat (0x10000 + (first - 0xD800) * 0x400 + (second - 0xDC00)), rest)
        else none
    | _ => none
  else if 0xDC00 ≤ first ∧ first ≤ 0xDFFF then none
  else some (Char.ofNat first, rest)

/-- `scan_string` behind the opening quote. Every turn consumes a character. -/
def scanString : Nat → List Char → Option (List Char × List Char)
  | 0, _ => none
  | _ + 1, [] => none
  | fuel + 1, c :: rest =>
      if c = '"' then some ([], rest)
      else if c = '\\' then
        match rest with
        | [] => none
        | symbol :: rest =>
            if symbol = 'u' then do
              let (escape, rest) ← unicodeEscape rest
              let (text, rest) ← scanString fuel rest
              return (escape :: text, rest)
            else do
              let escape ← simpleEscape symbol
              let (text, rest) ← scanString fuel rest
              return (escape :: text, rest)
      else if c.toNat < 0x20 then none
      else do
        let (text, rest) ← scanString fuel rest
        return (c :: text, rest)

end Strings

section Numbers

/-- A scanned number: its digits and what follows them as a fraction or exponent. -/
structure NumberToken where
  negative : Bool
  digits : List Char
  tail : List Char
  deriving DecidableEq, Repr

def scanInteger : List Char → Option (List Char × List Char)
  | '0' :: rest => some (['0'], rest)
  | text =>
      if text.takeWhile Char.isDigit = [] then none
      else some (text.takeWhile Char.isDigit, text.dropWhile Char.isDigit)

def scanFraction : List Char → Option (List Char × List Char)
  | '.' :: rest =>
      if rest.takeWhile Char.isDigit = [] then none
      else some ('.' :: rest.takeWhile Char.isDigit, rest.dropWhile Char.isDigit)
  | text => some ([], text)

def exponentSign : List Char → List Char × List Char
  | '+' :: rest => (['+'], rest)
  | '-' :: rest => (['-'], rest)
  | rest => ([], rest)

def scanExponent : List Char → Option (List Char × List Char)
  | [] => some ([], [])
  | mark :: rest =>
      if mark = 'e' ∨ mark = 'E' then
        let (sign, rest) := exponentSign rest
        if rest.takeWhile Char.isDigit = [] then none
        else some (mark :: sign ++ rest.takeWhile Char.isDigit, rest.dropWhile Char.isDigit)
      else some ([], mark :: rest)

def scanSign : List Char → Bool × List Char
  | '-' :: rest => (true, rest)
  | rest => (false, rest)

def scanNumber (text : List Char) : Option (NumberToken × List Char) := do
  let (negative, rest) := scanSign text
  let (digits, rest) ← scanInteger rest
  let (fraction, rest) ← scanFraction rest
  let (exponent, rest) ← scanExponent rest
  return (⟨negative, digits, fraction ++ exponent⟩, rest)

def NumberToken.text (token : NumberToken) : List Char :=
  (if token.negative then ['-'] else []) ++ token.digits ++ token.tail

/-- A number that overflows a double is refused. -/
def NumberToken.value (strtod : List Char → Option Binary64) (token : NumberToken) : Option Value :=
  let number := Nat.ofDigitChars 10 token.digits 0
  if token.tail = [] ∧ token.negative = false ∧ number < 2 ^ 64 then
    some (.unsigned (UInt64.ofNat number))
  else if token.tail = [] ∧ token.negative = true ∧ number ≤ 2 ^ 63 then
    some (.integer (Int64.ofInt (-number)))
  else (strtod token.text).map .float

end Numbers

section Values

variable (strtod : List Char → Option Binary64)

def scanLiteral (word : String) (value : Value) (text : List Char) : Option (Value × List Char) :=
  if word.toList.isPrefixOf text then some (value, text.drop word.length) else none

/-- A value that begins with this character and nests nothing. -/
def parseScalar (c : Char) (rest : List Char) : Option (Value × List Char) :=
  if c = '"' then do
    let (string, rest) ← scanString (rest.length + 1) rest
    return (.string (String.ofList string), rest)
  else if c = 't' then scanLiteral "true" (.boolean true) (c :: rest)
  else if c = 'f' then scanLiteral "false" (.boolean false) (c :: rest)
  else if c = 'n' then scanLiteral "null" .null (c :: rest)
  else do
    let (token, rest) ← scanNumber (c :: rest)
    let value ← token.value strtod
    return (value, rest)

/-- A member's name with its colon. -/
def parseKey (text : List Char) : Option (String × List Char) :=
  match skipWhitespace text with
  | '"' :: rest => do
      let (key, rest) ← scanString (rest.length + 1) rest
      match skipWhitespace rest with
      | ':' :: rest => some (String.ofList key, rest)
      | _ => none
  | _ => none

mutual

/-- A value behind white space. The fuel bounds the number of calls. -/
def parseValue : Nat → List Char → Option (Value × List Char)
  | 0, _ => none
  | fuel + 1, text =>
      match skipWhitespace text with
      | [] => none
      | c :: rest =>
          let rest' := skipWhitespace rest
          if c = '\x7b' then
            if rest'.head? = some '\x7d' then some (.object [], rest'.tail)
            else (parseMembers fuel rest').map fun (members, rest) => (.object members, rest)
          else if c = '[' then
            if rest'.head? = some ']' then some (.array [], rest'.tail)
            else (parseItems fuel rest').map fun (items, rest) => (.array items, rest)
          else parseScalar strtod c rest

/-- The items behind an opening bracket or a comma. -/
def parseItems : Nat → List Char → Option (List Value × List Char)
  | 0, _ => none
  | fuel + 1, text => do
      let (item, rest) ← parseValue fuel text
      match skipWhitespace rest with
      | [] => none
      | c :: rest =>
          if c = ',' then
            (parseItems fuel rest).map fun (items, rest) => (item :: items, rest)
          else if c = ']' then some ([item], rest)
          else none

/-- The members behind an opening brace or a comma. -/
def parseMembers : Nat → List Char → Option (List (String × Value) × List Char)
  | 0, _ => none
  | fuel + 1, text => do
      let (key, rest) ← parseKey text
      let (value, rest) ← parseValue fuel rest
      match skipWhitespace rest with
      | [] => none
      | c :: rest =>
          if c = ',' then
            (parseMembers fuel rest).map fun (members, rest) => ((key, value) :: members, rest)
          else if c = '\x7d' then some ([(key, value)], rest)
          else none

end

def skipBom : List Char → List Char
  | c :: rest => if c.toNat = 0xFEFF then rest else c :: rest
  | [] => []

/-- A whole text. Each character takes at most two calls. -/
def parse (text : String) : Option Value := do
  let (value, rest) ← parseValue strtod (2 * text.length + 2) (skipBom text.toList)
  if skipWhitespace rest = [] then some value else none

end Values

end Idsm.Json
