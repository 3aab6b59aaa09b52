import Idsm.Foundation.CText

/-! The file baseline of the host probe: one `sha256sum` line for each monitored file. -/

set_option autoImplicit false

namespace Idsm.HostProbe

open Idsm.Foundation

/-- The paths with their expected digests. -/
abbrev FileBaseline := List (List UInt8 × List UInt8)

def isBlank (byte : UInt8) : Bool := byte == 32 || byte == 9

def isTrimmed (byte : UInt8) : Bool := byte == 32 || byte == 9 || byte == 13

/-- The line without its comment and the blanks around it. -/
def cleanLine (line : List UInt8) : List UInt8 :=
  (((cutAt 35 line).1.dropWhile isTrimmed).rdropWhile isTrimmed)

/-- The bytes that pairs of hexadecimal digits stand for. -/
def hexBytes : List UInt8 → Option (List UInt8)
  | high :: low :: rest => do
      let high ← digitValue high
      let low ← digitValue low
      let rest ← hexBytes rest
      return UInt8.ofNat (high * 16 + low) :: rest
  | [] => some []
  | [_] => none

def sha256FromHex (hex : List UInt8) : Option (List UInt8) :=
  if hex.length = 64 then hexBytes hex else none

/-- `out[path] = digest`. -/
def putDigest (path digest : List UInt8) : FileBaseline → FileBaseline
  | [] => [(path, digest)]
  | (other, old) :: rest =>
      if other = path then (path, digest) :: rest else (other, old) :: putDigest path digest rest

/-- The baseline after a line, and whether the line is bad. -/
def loadBaselineLine (out : FileBaseline) (line : List UInt8) : FileBaseline × Bool :=
  let entry := cleanLine line
  if entry = [] then (out, false)
  else if entry.length < 66 then (out, true)
  else
    match sha256FromHex (entry.take 64) with
    | none => (out, true)
    | some digest =>
        match (entry.drop 64).dropWhile (!isBlank ·) with
        | [] => (out, true)
        | blanks =>
            match blanks.dropWhile isBlank with
            | [] => (out, true)
            | path => (putDigest path digest out, false)

def loadBaselineLines (out : FileBaseline) (lines : List (List UInt8)) : FileBaseline × Nat :=
  lines.foldl (fun (out, skipped) line =>
    let (out, bad) := loadBaselineLine out line
    (out, if bad then skipped + 1 else skipped)) (out, 0)

/-- `load_file_baseline_file` of a file, or of none that can be opened. -/
def loadFileBaseline (out : FileBaseline) (file : Option (List UInt8)) :
    Option (FileBaseline × Nat) :=
  file.map fun content => loadBaselineLines out (fields 10 content)

/-- What `sha256sum` says of a file. A name that it escapes is left out. -/
structure SumEntry where
  path : List UInt8
  digest : List UInt8
  binary : Bool
  nonempty : path ≠ []
  unescaped : 10 ∉ path ∧ 13 ∉ path ∧ 92 ∉ path
  size : digest.length = 32

def hexDigit (value : Nat) : UInt8 :=
  if value < 10 then UInt8.ofNat (48 + value) else UInt8.ofNat (87 + value)

def sha256Hex (digest : List UInt8) : List UInt8 :=
  digest.flatMap fun byte => [hexDigit (byte.toNat / 16), hexDigit (byte.toNat % 16)]

/-- The digest, a blank, the mode and the path. -/
def SumEntry.line (entry : SumEntry) : List UInt8 :=
  sha256Hex entry.digest ++ 32 :: (if entry.binary then 42 else 32) :: entry.path

/-- The output of `sha256sum`. -/
def sumFile (entries : List SumEntry) : List UInt8 := entries.flatMap (·.line ++ [10])

end Idsm.HostProbe
