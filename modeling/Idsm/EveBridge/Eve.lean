import Idsm.Json.Parse

/-! The alert reader of the Suricata bridge, `eve.cpp`. It searches the line for quoted names
instead of parsing it. -/

set_option autoImplicit false

namespace Idsm.EveBridge

structure EveAlert where
  valid : Bool
  srcIp : List Char
  srcPort : UInt16
  destIp : List Char
  destPort : UInt16
  proto : List Char
  signatureId : UInt32
  severity : UInt8
  signature : List Char
  deriving DecidableEq

def EveAlert.empty : EveAlert := ⟨false, [], 0, [], 0, [], 0, 0, []⟩

/-- The text from the first occurrence of the needle on. -/
def strstr (needle : List Char) : List Char → Option (List Char)
  | [] => if needle = [] then some [] else none
  | c :: text => if needle.isPrefixOf (c :: text) then some (c :: text) else strstr needle text

def strchr (mark : Char) (text : List Char) : Option (List Char) :=
  match text.dropWhile (· ≠ mark) with
  | [] => none
  | found => some found

/-- A name between quotes. -/
def needle (key : String) : List Char := '"' :: (key.toList ++ ['"'])

def isGap (c : Char) : Bool := c == ' ' || c == '\t' || c == ':'

/-- The brace behind the section's name, or the whole line. -/
def findSection (p : List Char) : Option String → Option (List Char)
  | none => some p
  | some section' => (strstr (needle section') p).bind (strchr '\x7b')

def findKey (p : List Char) (key : String) (section' : Option String) : Option (List Char) := do
  let start ← findSection p section'
  let found ← strstr (needle key) start
  return (found.drop (needle key).length).dropWhile isGap

/-- The text of a string up to its closing quote, and whether there is one. `escaped` is true
behind a backslash. -/
def stringBody (escaped : Bool) : List Char → List Char × Bool
  | [] => ([], false)
  | c :: rest =>
      if escaped then
        let symbol := if c = 'n' then '\n' else if c = 't' then '\t' else if c = 'r' then '\r' else c
        (symbol :: (stringBody false rest).1, (stringBody false rest).2)
      else if c = '"' then ([], true)
      else if c = '\\' ∧ rest ≠ [] then stringBody true rest
      else (c :: (stringBody false rest).1, (stringBody false rest).2)

/-- What is written to `out`, and whether the text was one. Without an opening quote, `out`
stays as it was. -/
def parseJsonString (p out : List Char) : List Char × Bool :=
  match p with
  | '"' :: rest => stringBody false rest
  | _ => (out, false)

/-- `strtoul` of digits, then the cast to 32 bits. -/
def parseJsonU32 (p : List Char) : Option UInt32 :=
  let digits := p.takeWhile Char.isDigit
  if digits = [] then none
  else some (UInt32.ofNat (min (Nat.ofDigitChars 10 digits 0) (2 ^ 64 - 1)))

def getString (json : List Char) (key : String) (section' : Option String) (out : List Char) :
    List Char × Bool :=
  match findKey json key section' with
  | none => (out, false)
  | some p => parseJsonString p out

def getU32 (json : List Char) (key : String) (section' : Option String) : Option UInt32 :=
  (findKey json key section').bind parseJsonU32

/-- `c_str()` ends at a null character. -/
def cStr (line : String) : List Char := line.toList.takeWhile (· ≠ '\x00')

def parseEveAlert (line : String) : EveAlert :=
  let json := cStr line
  let a := EveAlert.empty
  let (eventType, isText) := getString json "event_type" none []
  if !isText || eventType ≠ "alert".toList then a
  else
    let (srcIp, hasSource) := getString json "src_ip" none a.srcIp
    let a := { a with srcIp }
    if !hasSource then a
    else
      let (destIp, hasDestination) := getString json "dest_ip" none a.destIp
      let a := { a with destIp }
      if !hasDestination then a
      else
        let a := { a with
          proto := (getString json "proto" none a.proto).1
          signature := (getString json "signature" (some "alert") a.signature).1
          srcPort := match getU32 json "src_port" none with
            | some v => v.toUInt16
            | none => a.srcPort
          destPort := match getU32 json "dest_port" none with
            | some v => v.toUInt16
            | none => a.destPort }
        match getU32 json "signature_id" (some "alert") with
        | none => a
        | some v =>
            { a with
              signatureId := v
              severity := match getU32 json "severity" (some "alert") with
                | some v => v.toUInt8
                | none => a.severity
              valid := true }

end Idsm.EveBridge
