import Idsm.Android.SignedBundle
import Idsm.Foundation.StringOrder

/-! The rule manager of the Android side: the canonical text of a rule bundle, and its
checks, its landing and the calls of them that may throw. -/

set_option autoImplicit false

namespace Idsm.Android

open Idsm.Foundation
open Idsm.Managerd (DeviceIdentity Scalars Target base64Encode validVersionName)

namespace RuleManager

/-- The encoder without line wraps writes plain base64. -/
def payloadLine (i : Nat) (r : String) : String :=
  "rule:" ++ toString (10000 + i) ++ ":" ++ base64Encode (utf8 r)

/-- `sorted` compares by UTF-16 units. -/
def payloadLines (ruleTexts : List String) : List String :=
  (ruleTexts.zipIdx.map fun rule => payloadLine rule.2 rule.1).insertionSort UnitsLe

def canonicalBytes (seq : Int) (tenant version : String) (rollback : Bool)
    (targetEcu targetNode targetVmodel : String) (issuedAt expiresAt upgradeType : Int)
    (payloadLines : List String) : List UInt8 :=
  let sb := "seq=" ++ toString seq ++ "\n"
  let sb := sb ++ "tenant=" ++ tenant ++ "\n"
  let sb := sb ++ "version=" ++ version ++ "\n"
  let sb := sb ++ "rollback=" ++ (if rollback then "1" else "0") ++ "\n"
  let sb := sb ++ "target_ecu=" ++ targetEcu ++ "\n"
  let sb := sb ++ "target_node=" ++ targetNode ++ "\n"
  let sb := sb ++ "target_vmodel=" ++ targetVmodel ++ "\n"
  let sb := sb ++ "issued_at=" ++ toString issuedAt ++ "\n"
  let sb := sb ++ "expires_at=" ++ toString expiresAt ++ "\n"
  let sb := sb ++ "upgrade_type=" ++ toString upgradeType ++ "\n"
  utf8 (payloadLines.foldl (fun sb line => sb ++ line ++ "\n") sb)

section Apply

variable (platform : Platform)

/-- A bundle that passed the checks before its signature's. -/
structure Draft (library : OrgJson) where
  scalars : Scalars
  target : Target
  rulesArr : library.Array

/-- Steps 1 to 3; `maxSeq` is what `loadMaxSeq` returns. -/
def readDraft (nowSec maxSeq : Int) (bundleText : String) : Apply (Draft platform.json) := do
  let bundle ← parseBundle platform.json bundleText
  requireText platform.json bundle "msg_type" "rule_update"
  requireText platform.json bundle "sig_alg" "Ed25519"
  let scalars := readScalars platform.json bundle "upgrade_type"
  returnUnless (0 < scalars.seq) "bad seq"
  returnUnless (validVersionName scalars.version = true) ("illegal version: " ++ scalars.version)
  returnUnless (scalars.bundleType = 1)
    ("unsupported upgrade_type=" ++ toString scalars.bundleType)
  let rulesArr ← catching (platform.json.getJSONArray bundle "rules")
    "upgrade_type=1 requires rules[]"
  returnUnless (platform.json.length rulesArr ≠ 0) "empty rules[]"
  let target ← catching (platform.json.getJSONObject bundle "target") "target missing"
  checkTimes nowSec scalars
  checkSeq maxSeq scalars
  return { scalars, target := readTarget platform.json target, rulesArr }

/-- A bundle with the texts of its rules. -/
structure Update where
  scalars : Scalars
  target : Target
  ruleTexts : List String
  deriving DecidableEq

def Update.canonical (update : Update) : List UInt8 :=
  canonicalBytes update.scalars.seq update.scalars.tenant update.scalars.version
    update.scalars.rollback update.target.ecu update.target.nodeType update.target.vmodel
    update.scalars.issuedAt update.scalars.expiresAt update.scalars.bundleType
    (payloadLines update.ruleTexts)

/-- Steps 4 and 5. -/
def authorize (draft : Draft platform.json) : Apply Update := do
  let ruleTexts ← throwing (platform.json.strings draft.rulesArr) .json
  let update : Update := { scalars := draft.scalars, target := draft.target, ruleTexts }
  authenticate platform "Ed25519 signature mismatch" update.canonical update.scalars
  return update

/-- The file operations that may throw, a failed `check` among them. -/
inductive Call where
  | writeRule (file text : String)
  | syncRule (file : String)
  | renameRules (version : String)
  | syncDir
  | symlink (version : String)
  | swapCurrent
  | writeMaxSeq (text : String)
  | renameMaxSeq
  deriving DecidableEq

def saveMaxSeq (seq : Int) : List Call := [.writeMaxSeq (toString seq ++ "\n"), .renameMaxSeq]

/-- Step 7; what it deletes and creates beside these never throws. -/
def land (update : Update) : List Call :=
  (update.ruleTexts.zipIdx.flatMap fun rule =>
    let file := "rule_" ++ toString (10000 + rule.2) ++ ".rules"
    [.writeRule file rule.1, .syncRule file]) ++
  [.renameRules update.scalars.version, .syncDir, .symlink update.scalars.version,
    .swapCurrent] ++ saveMaxSeq update.scalars.seq

/-- Steps 6 and 7; step 8 only sets properties, which never throws. -/
def conclude (env : Call → Bool) (self : DeviceIdentity) (update : Update) :
    Apply (Option String) := do
  if hits platform.strings self update.target then
    perform env (land update)
    return none
  else
    perform env (saveMaxSeq update.scalars.seq)
    return some "SKIP"

def apply (env : Call → Bool) (self : DeviceIdentity) (nowSec maxSeq : Int)
    (bundleText : String) : Except Thrown (Option String) :=
  resultOf do
    let draft ← readDraft platform nowSec maxSeq bundleText
    let update ← authorize platform draft
    conclude platform env self update

def onCloudMessage (env : Call → Bool) (self : DeviceIdentity) (nowSec maxSeq : Int)
    (payload : List UInt8) : Except Thrown Ending :=
  (apply platform env self nowSec maxSeq (platform.strings.ofBytes payload)).map endingOf

end Apply

end RuleManager

end Idsm.Android
