import Idsm.Managerd.SignedBundle

/-! What the rule and the configuration manager of the Android side share. The JSON
library and the cryptographic provider are parameters. -/

set_option autoImplicit false

namespace Idsm.Android

open Idsm.Foundation
open Idsm.Managerd (DeviceIdentity Scalars Target validVersionName)

/-- org.json. Its `get` accessors coerce or throw, which is `none`; `text` with an indent
throws on numbers that are not finite. -/
structure OrgJson where
  Object : Type
  Array : Type
  ofText : String → Except String Object
  getString : Object → (name : String) → Option String
  getLong : Object → (name : String) → Option Int
  getInt : Object → (name : String) → Option Int
  getBoolean : Object → (name : String) → Option Bool
  getJSONArray : Object → (name : String) → Option Array
  getJSONObject : Object → (name : String) → Option Object
  keys : Object → List String
  length : Array → Nat
  stringAt : Array → Nat → Option String
  intAt : Array → Nat → Option Int
  objectAt : Array → Nat → Option Object
  empty : Object
  putString : Object → (name value : String) → Object
  putLong : Object → (name : String) → Int → Object
  putInts : Object → (name : String) → List Int → Object
  text : Object → String
  indented : Object → Option String

namespace OrgJson

variable (library : OrgJson) (object : library.Object) (name : String)

/-! An `opt` accessor falls back where its `get` sibling throws. -/

def optString (fallback : String) : String := (library.getString object name).getD fallback

def optLong (fallback : Int) : Int := (library.getLong object name).getD fallback

def optInt (fallback : Int) : Int := (library.getInt object name).getD fallback

def optBoolean (fallback : Bool) : Bool := (library.getBoolean object name).getD fallback

/-- `getString` of every element. -/
def strings (array : library.Array) : Option (List String) :=
  (List.range (library.length array)).mapM (library.stringAt array)

end OrgJson

/-- The platform's Base64 decoder and its provider of Ed25519. An exception comes with its
message. -/
structure Security where
  decodeBase64 : String → Except String (List UInt8)
  Key : Type
  generatePublic : List UInt8 → Except String Key
  verify : Key → (data sig : List UInt8) → Except String Bool
  encoded : Key → List UInt8
  sha256 : List UInt8 → List UInt8

/-- The strings of the platform: how bytes become one, and the comparison without case. -/
structure Strings where
  ofBytes : List UInt8 → String
  equalsIgnoreCase : String → String → Bool

/-- `signingPubkeyB64` is the key that is built in. -/
structure Platform where
  json : OrgJson
  security : Security
  strings : Strings
  signingPubkeyB64 : String

/-- The exceptions that no handler of the managers catches. -/
inductive Thrown where
  | json
  | base64
  | key
  | file
  deriving DecidableEq, Repr

/-- How `apply` is left before its end: it returns an error text, or an exception leaves it. -/
inductive Leave where
  | returned (err : String)
  | threw (error : Thrown)
  deriving DecidableEq, Repr

abbrev Apply (α : Type) : Type := Except Leave α

def returnUnless (condition : Prop) [Decidable condition] (err : String) : Apply Unit :=
  if condition then .ok () else .error (.returned err)

/-- A call inside `runCatching`, with the text that is returned when it throws. -/
def catching {α : Type} (called : Option α) (err : String) : Apply α :=
  match called with
  | some value => .ok value
  | none => .error (.returned err)

/-- A call outside any handler. -/
def throwing {α : Type} (called : Option α) (error : Thrown) : Apply α :=
  match called with
  | some value => .ok value
  | none => .error (.threw error)

def CLOCK_SKEW_SEC : Int := 24 * 3600

section Fields

variable (library : OrgJson)

def parseBundle (bundleText : String) : Apply library.Object :=
  match library.ofText bundleText with
  | .ok bundle => .ok bundle
  | .error message => .error (.returned ("json parse: " ++ message))

def requireText (bundle : library.Object) (name text : String) : Apply Unit :=
  returnUnless (library.optString bundle name "" = text) (name ++ " != " ++ text)

def readScalars (bundle : library.Object) (typeKey : String) : Scalars where
  seq := library.optLong bundle "seq" (-1)
  version := library.optString bundle "version" ""
  rollback := library.optBoolean bundle "rollback" false
  bundleType := library.optInt bundle typeKey (-1)
  issuedAt := library.optLong bundle "issued_at" (-1)
  expiresAt := library.optLong bundle "expires_at" (-1)
  tenant := library.optString bundle "manufacturer" ""
  pubkeyId := library.optString bundle "pubkey_id" ""
  signature := library.optString bundle "signature" ""

def readTarget (target : library.Object) : Target where
  ecu := library.optString target "ecu" ""
  nodeType := library.optString target "nodeType" ""
  vmodel := library.optString target "vmodel" ""

end Fields

def checkTimes (nowSec : Int) (scalars : Scalars) : Apply Unit := do
  returnUnless (nowSec - CLOCK_SKEW_SEC ≤ scalars.expiresAt) "bundle expired"
  returnUnless (scalars.issuedAt ≤ nowSec + CLOCK_SKEW_SEC) "bundle issued in the future"

def checkSeq (maxSeq : Int) (scalars : Scalars) : Apply Unit :=
  returnUnless (maxSeq < scalars.seq) ("seq rollback rejected (max_seq=" ++ toString maxSeq ++ ")")

section Signature

variable (platform : Platform)

/-- `mismatch` is the message of the failed `check`. -/
def verifyEd25519 (mismatch : String) (data sig : List UInt8) : Except String Unit := do
  let pub ← platform.security.decodeBase64 platform.signingPubkeyB64
  let key ← platform.security.generatePublic pub
  let verified ← platform.security.verify key data sig
  if verified then .ok () else .error mismatch

/-- The last 32 bytes of the key's encoding; a shorter encoding makes the copy throw. -/
def configuredPubkeyId : Option String := do
  let pub ← (platform.security.decodeBase64 platform.signingPubkeyB64).toOption
  let key ← (platform.security.generatePublic pub).toOption
  let encoded := platform.security.encoded key
  if 32 ≤ encoded.length then
    let digest := platform.security.sha256 (encoded.drop (encoded.length - 32))
    some (String.ofList ((digest.take 8).flatMap fun byte =>
      [hexDigit (byte.toNat / 16), hexDigit byte.toNat]))
  else none

/-- Step 5: only the verification itself is in a handler. -/
def authenticate (mismatch : String) (canonical : List UInt8) (scalars : Scalars) :
    Apply Unit := do
  let sigBytes ← throwing (platform.security.decodeBase64 scalars.signature).toOption .base64
  match verifyEd25519 platform mismatch canonical sigBytes with
  | .error message => .error (.returned ("Ed25519 signature mismatch: " ++ message))
  | .ok () =>
      let wantKeyId ← throwing (configuredPubkeyId platform) .key
      returnUnless (platform.strings.equalsIgnoreCase wantKeyId scalars.pubkeyId = true)
        ("pubkey_id mismatch (want " ++ wantKeyId ++ ", got " ++ scalars.pubkeyId ++ ")")

end Signature

/-- Step 6. -/
def hits (strings : Strings) (self : DeviceIdentity) (target : Target) : Bool :=
  let nodeHit := strings.equalsIgnoreCase target.nodeType "all" ||
    self.nodeTypes.any fun nodeType => strings.equalsIgnoreCase nodeType target.nodeType
  let hit := strings.equalsIgnoreCase target.ecu self.ecu ||
    strings.equalsIgnoreCase target.ecu "all"
  let vHit := strings.equalsIgnoreCase target.vmodel self.vmodel ||
    strings.equalsIgnoreCase target.vmodel "all"
  hit && vHit && nodeHit

/-- File operations one after another, each of which throws or not. -/
def perform {Call : Type} (env : Call → Bool) : List Call → Apply Unit
  | [] => .ok ()
  | call :: later => if env call then perform env later else .error (.threw .file)

/-- How a call of a manager ends when it returns. -/
inductive Ending where
  | applied
  | skipped
  | rejected (reason : String)
  deriving DecidableEq, Repr

/-- `onCloudMessage` behind `apply`, which returns no text or one; the rejection goes to
`onReject`. -/
def endingOf : Option String → Ending
  | none => .applied
  | some err => if err = "SKIP" then .skipped else .rejected err

/-- What `apply` returns, or the exception that leaves it. -/
def resultOf : Apply (Option String) → Except Thrown (Option String)
  | .ok result => .ok result
  | .error (.returned err) => .ok (some err)
  | .error (.threw error) => .error error

end Idsm.Android
