import Idsm.Foundation.Program
import Idsm.Foundation.Text
import Idsm.Json.Value
import Idsm.Managerd.Base64

/-! What the rule and the configuration manager share: the checks of a signed
bundle in their order, its canonical text and its signature. -/

set_option autoImplicit false

namespace Idsm.Managerd

open Idsm.Foundation
open Idsm.Json (Value)

/-- A check refuses the bundle with a message, or an exception leaves it. -/
inductive Stop where
  | rejected (err : List UInt8)
  | threw (error : Json.Error)
  deriving DecidableEq

abbrev Checked (α : Type) : Type := Except Stop α

def reject {α : Type} (err : String) : Checked α := .error (.rejected (utf8 err))

/-- Go on with a proof of the condition, or refuse. -/
def require (condition : Prop) [Decidable condition] (err : String) : Checked (PLift condition) :=
  if holds : condition then .ok ⟨holds⟩ else reject err

/-- An accessor of the JSON library, outside any handler. -/
def unguarded {α : Type} (accessed : Except Json.Error α) : Checked α :=
  accessed.mapError Stop.threw

theorem bind_eq_ok {ε α β : Type} {checked : Except ε α} {next : α → Except ε β} {result : β} :
    (checked >>= next) = .ok result ↔ ∃ value, checked = .ok value ∧ next value = .ok result := by
  cases checked with
  | error stop => simp [bind, Except.bind]
  | ok value => simp [bind, Except.bind]

theorem require_eq_ok {condition : Prop} [Decidable condition] {err : String}
    {proof : PLift condition} : require condition err = .ok proof ↔ condition := by
  by_cases holds : condition
  · simp only [require, holds, dite_true]
  · simp [require, holds, reject]

theorem require_of {condition : Prop} [Decidable condition] {err : String}
    (holds : condition) : require condition err = .ok ⟨holds⟩ := by simp [require, holds]

theorem unguarded_eq_ok {α : Type} {accessed : Except Json.Error α} {value : α} :
    unguarded accessed = .ok value ↔ accessed = .ok value := by
  cases accessed <;> simp [unguarded, Except.mapError]

def kClockSkewToleranceSec : Int := 24 * 3600

def toLower (text : String) : String := String.ofList (text.toList.map Char.toLower)

def targetMatches (want : String) («have» : String) : Bool :=
  toLower want == "all" || toLower want == toLower «have»

def versionCharacters : List Char :=
  ("ABCDEFGHIJKLMNOPQRSTUVWXYZ" ++ "abcdefghijklmnopqrstuvwxyz" ++ "0123456789._-").toList

/-- A version names a directory. -/
def validVersionName (v : String) : Bool :=
  !(v == "" || v == "." || v == "..") && v.toList.all (versionCharacters.contains ·)

structure DeviceIdentity where
  ecu : String
  vmodel : String
  nodeTypes : List String
  deriving DecidableEq

structure Target where
  ecu : String
  nodeType : String
  vmodel : String
  deriving DecidableEq

def Target.hits (target : Target) (self : DeviceIdentity) : Bool :=
  targetMatches target.ecu self.ecu && targetMatches target.vmodel self.vmodel &&
    (targetMatches target.nodeType "all" || self.nodeTypes.any (targetMatches target.nodeType ·))

/-- The signed fields that both bundle kinds have. -/
structure Header where
  seq : Int
  tenant : String
  version : String
  rollback : Bool
  target : Target
  issuedAt : Int
  expiresAt : Int
  bundleType : Int
  positive : 0 < seq
  named : validVersionName version = true
  deriving DecidableEq

/-- The scalar fields as they are read, before any of them is checked. -/
structure Scalars where
  seq : Int
  version : String
  rollback : Bool
  bundleType : Int
  issuedAt : Int
  expiresAt : Int
  tenant : String
  pubkeyId : String
  signature : String
  deriving DecidableEq

def requireFields (keys : List String) (bundle : Value) : Checked Unit :=
  match keys.find? fun key => !bundle.contains key with
  | some key => reject ("bundle missing " ++ key)
  | none => .ok ()

def requireText (bundle : Value) (key : String) (text : String) : Checked Unit := do
  let found ← unguarded (bundle.field key).getString
  let _ ← require (found = text) (key ++ " != " ++ text)
  return ()

def readScalars (bundle : Value) (typeKey : String) : Except Json.Error Scalars := do
  let seq ← (bundle.field "seq").getLongLong
  let version ← (bundle.field "version").getString
  let rollback ← (bundle.field "rollback").getBool
  let bundleType ← (bundle.field typeKey).getInt
  let issuedAt ← (bundle.field "issued_at").getLongLong
  let expiresAt ← (bundle.field "expires_at").getLongLong
  let tenant ← (bundle.field "manufacturer").getString
  let pubkeyId ← (bundle.field "pubkey_id").getString
  let signature ← (bundle.field "signature").getString
  return { seq, version, rollback, bundleType, issuedAt, expiresAt, tenant, pubkeyId, signature }

def targetText (target : Value) (key : String) : Checked String :=
  match target.member? key with
  | some (.string text) => .ok text
  | _ => reject ("target missing " ++ key)

def readTarget (target : Value) : Checked Target := do
  let ecu ← targetText target "ecu"
  let nodeType ← targetText target "nodeType"
  let vmodel ← targetText target "vmodel"
  return { ecu, nodeType, vmodel }

def checkTimes (now : Int) (scalars : Scalars) : Checked Unit := do
  let _ ← require (now - kClockSkewToleranceSec ≤ scalars.expiresAt) "bundle expired"
  let _ ← require (scalars.issuedAt ≤ now + kClockSkewToleranceSec) "bundle issued in the future"
  return ()

def checkSeq (maxSeq : Int) (scalars : Scalars) : Checked Unit := do
  let _ ← require (maxSeq < scalars.seq)
    ("seq rollback rejected (max_seq=" ++ toString maxSeq ++ ")")
  return ()

def canonicalBytes (typeKey : String) (seq : Int) (tenant version : String) (rollback : Bool)
    (targetEcu targetNode targetVmodel : String) (issuedAt expiresAt bundleType : Int)
    (payloadLines : List String) : String :=
  payloadLines.foldl (fun out line => out ++ line ++ "\n")
    ("seq=" ++ toString seq ++ "\n" ++
      "tenant=" ++ tenant ++ "\n" ++
      "version=" ++ version ++ "\n" ++
      "rollback=" ++ (if rollback then "1" else "0") ++ "\n" ++
      "target_ecu=" ++ targetEcu ++ "\n" ++
      "target_node=" ++ targetNode ++ "\n" ++
      "target_vmodel=" ++ targetVmodel ++ "\n" ++
      "issued_at=" ++ toString issuedAt ++ "\n" ++
      "expires_at=" ++ toString expiresAt ++ "\n" ++
      typeKey ++ "=" ++ toString bundleType ++ "\n")

/-- The payload lines in ascending order. -/
def sortLines (lines : List String) : List String := lines.insertionSort (· ≤ ·)

/-- The cryptographic library behind the managers. -/
structure Crypto where
  Key : Type
  readPublicKey : String → Option Key
  digestVerify : Key → (sig : List UInt8) → (message : List UInt8) → Bool
  rawPublicKey : Key → Option (List UInt8)
  sha256 : List UInt8 → List UInt8

def pemOf (der : List UInt8) : String :=
  "-----BEGIN PUBLIC KEY-----\n" ++ base64Encode der ++ "\n-----END PUBLIC KEY-----\n"

section Signature

variable (crypto : Crypto) (pubkeyB64 : String)

def configuredKey : Checked crypto.Key :=
  match base64Decode (utf8 pubkeyB64) with
  | none => reject "pubkey b64 decode failed"
  | some der =>
      match crypto.readPublicKey (pemOf der) with
      | none => reject "pubkey parse failed"
      | some pkey => .ok pkey

/-- `purpose` is the manager's word in the message about a missing key. -/
def verifySignature (purpose : String) (canonical sigB64 : String) : Checked Unit := do
  let _ ← require (pubkeyB64 ≠ "")
    ("no " ++ purpose ++ " signing pubkey configured (--pubkey-b64)")
  let pkey ← configuredKey crypto pubkeyB64
  match base64Decode (utf8 sigB64) with
  | none => reject "Ed25519 signature mismatch"
  | some sig =>
      let _ ← require (crypto.digestVerify pkey sig (utf8 canonical)) "Ed25519 signature mismatch"
      return ()

/-- The first sixteen hex digits of the raw key's digest. -/
def configuredPubkeyId : Checked String := do
  let pkey ← configuredKey crypto pubkeyB64
  match crypto.rawPublicKey pkey with
  | none => reject "pubkey is not Ed25519 raw-extractable"
  | some raw =>
      let _ ← require (raw.length = 32) "pubkey is not Ed25519 raw-extractable"
      return String.ofList <| ((crypto.sha256 raw).take 8).flatMap fun byte =>
        [hexDigit (byte.toNat / 16), hexDigit byte.toNat]

def authenticate (purpose : String) (canonical : String) (scalars : Scalars) : Checked Unit := do
  verifySignature crypto pubkeyB64 purpose canonical scalars.signature
  let want ← configuredPubkeyId crypto pubkeyB64
  let _ ← require (toLower want = toLower scalars.pubkeyId)
    ("pubkey_id mismatch (want " ++ want ++ ", got " ++ scalars.pubkeyId ++ ")")
  return ()

end Signature

section MaxSeq

def isSpace (c : UInt8) : Bool := c == 32 || (9 ≤ c && c ≤ 13)

def isDigit (c : UInt8) : Bool := 48 ≤ c && c ≤ 57

def digitsValue (digits : List UInt8) : Nat :=
  digits.foldl (fun value c => 10 * value + (c.toNat - 48)) 0

/-- `is >> seq` for a `long long`: the stream fails on no digits and on overflow. -/
def extractLongLong (content : List UInt8) : Option Int :=
  let text := content.dropWhile isSpace
  let negative := text.head? == some 45
  let digits := (if negative || text.head? == some 43 then text.tail else text).takeWhile isDigit
  let value : Int := if negative then -(digitsValue digits : Int) else digitsValue digits
  if digits ≠ [] ∧ -2 ^ 63 ≤ value ∧ value < 2 ^ 63 then some value else none

/-- The sequence number a file holds; an unreadable or malformed file counts as zero. -/
def maxSeqOf (content : Option (List UInt8)) : Int := ((content.bind extractLongLong)).getD 0

def seqText (seq : Int) : List UInt8 := utf8 (toString seq ++ "\n")

end MaxSeq

section Application

variable {σ draft bundle result : Type}

/-- Read the stored sequence number; an error counts as a missing file. -/
def loadSeq (fault : Fault) (stored : σ → Int) : Program σ Stop Int :=
  .step fault (fun store => (stored store, store)) (fun _ store => store) (maxSeqOf none)

/-- The order of an application: the format checks, the stored number, the checks
against it, then the conclusion. -/
def admitThen (read : Checked draft) (load : Program σ Stop Int)
    (authorize : Int → draft → Checked bundle) (conclude : bundle → Program σ Stop result) :
    Program σ Stop result := do
  let draft ← Program.ofExcept read
  let maxSeq ← load
  let accepted ← Program.ofExcept (authorize maxSeq draft)
  conclude accepted

end Application

end Idsm.Managerd
