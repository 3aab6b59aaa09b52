import Idsm.Android.SignedBundle
import Idsm.Managerd.ConfigManager

/-! The configuration manager of the Android side: the canonical text of a bundle, and its
checks, its landing and the calls of them that may throw. -/

set_option autoImplicit false

namespace Idsm.Android

open Idsm.Foundation
open Idsm.Managerd (ConfigContent ConfigItem DeviceIdentity Header Scalars Target
  isAsciiPrintable itemLine listNames sortLines validVersionName)

/-- `String.replace` of a single character. -/
def replace (text : String) (symbol : Char) (replacement : String) : String :=
  String.ofList (text.toList.flatMap fun c => if c = symbol then replacement.toList else [c])

def jsonStr (s : String) : String :=
  "\"" ++ replace (replace s '\\' "\\\\") '"' "\\\"" ++ "\""

/-- A comma before every piece but the first. -/
def appendAll (sb : String) : List String → String
  | [] => sb
  | piece :: rest => rest.foldl (fun sb later => sb ++ "," ++ later) (sb ++ piece)

/-- The keys in ascending order; the daemon admits ASCII keys only, on which the
order of UTF-16 units is that of the code points. -/
def appendValue (sb : String) : ConfigContent → String
  | .list entries => appendAll (sb ++ ",\"config_value\":[") (entries.map jsonStr) ++ "]"
  | .enable flags =>
      appendAll (sb ++ ",\"config_value\":\x7b")
        (flags.entries.map fun flag => jsonStr flag.1 ++ ":" ++ (if flag.2 then "1" else "0")) ++
      "\x7d"

def buildCanonItemJson (name : String) (value : ConfigContent) (version : String) : String :=
  appendValue ("\x7b\"config_name\":" ++ jsonStr name) value ++ "\x7d,\"config_version\":" ++
    jsonStr version ++ "\x7d"

/-- The lines of the items; the encoder without line wraps writes plain base64. -/
def payloadLines (items : List ConfigItem) : List String :=
  sortLines (items.map fun item =>
    itemLine item.name (buildCanonItemJson item.name item.content item.itemVersion))

def canonicalBytes (seq : Int) (tenant version : String) (rollback : Bool)
    (targetEcu targetNode targetVmodel : String) (issuedAt expiresAt configType : Int)
    (payloadLines : List String) : List UInt8 :=
  let sb := "seq=" ++ toString seq ++ "\n"
  let sb := sb ++ "tenant=" ++ tenant ++ "\n"
  let sb := sb ++ "version=" ++ version ++ "\n"
  let sb := sb ++ "rollback=" ++ (if rollback then "1" else "0") ++ "\n"
  let sb := sb ++ "target_ecu=" ++ targetEcu ++ "\n"
  let sb := sb ++ "target_node=" ++ targetNode ++ "\n"
  let sb := sb ++ "target_vmodel=" ++ targetVmodel ++ "\n"
  let sb := sb ++ "issued_at=" ++ toString issuedAt ++ "\n"
  let sb := sb ++ "expires_at=" ++ toString expiresAt ++ "\n"
  let sb := sb ++ "config_type=" ++ toString configType ++ "\n"
  utf8 (payloadLines.foldl (fun sb line => sb ++ line ++ "\n") sb)

/-- The bytes the manager verifies for a bundle of these fields and items. -/
def signedBytes (header : Header) (items : List ConfigItem) : List UInt8 :=
  canonicalBytes header.seq header.tenant header.version header.rollback header.target.ecu
    header.target.nodeType header.target.vmodel header.issuedAt header.expiresAt header.bundleType
    (payloadLines items)

namespace ConfigManager

section Items

variable (library : OrgJson)

def checkEntries (name : String) (arr : library.Array) : List Nat → Apply Unit
  | [] => .ok ()
  | j :: later => do
      let v ← catching (library.stringAt arr j) (name ++ ": non-string entry")
      returnUnless (isAsciiPrintable v = true) (name ++ ": non-ascii entry")
      checkEntries name arr later

def checkContent (configType : Int) (name : String) (it : library.Object) : Apply Unit :=
  if configType = 1 then do
    returnUnless (name ∈ listNames) ("unknown config_name: " ++ name)
    let arr ← catching (library.getJSONArray it "config_value")
      (name ++ ": config_value must be array<string>")
    checkEntries library name arr (List.range (library.length arr))
  else do
    returnUnless (name = "rule_enable") ("config_type=2 only supports rule_enable, got " ++ name)
    let obj ← catching (library.getJSONObject it "config_value")
      "rule_enable: config_value must be object"
    returnUnless (library.keys obj ≠ []) "rule_enable: empty object"
    returnUnless (∀ key ∈ library.keys obj,
      library.optInt obj key (-1) = 0 ∨ library.optInt obj key (-1) = 1)
      "rule_enable: value must be 0|1"

/-- The value read again, outside any handler. -/
def readContent (configType : Int) (it : library.Object) : Option ConfigContent :=
  if configType = 1 then do
    let arr ← library.getJSONArray it "config_value"
    let entries ← library.strings arr
    some (.list entries)
  else do
    let obj ← library.getJSONObject it "config_value"
    let flags ← (library.keys obj).mapM fun key =>
      (library.getInt obj key).map fun v => (key, decide (v = 1))
    some (.enable (.ofList flags))

/-- An item beside the object it was read from. -/
structure Item where
  item : ConfigItem
  value : library.Object

def readItem (configType : Int) (itemsArr : library.Array) (i : Nat) : Apply (Item library) := do
  let it ← catching (library.objectAt itemsArr i) ("item " ++ toString i ++ " not object")
  let name := library.optString it "config_name" ""
  let versionStr := library.optString it "config_version" ""
  returnUnless (isAsciiPrintable name = true ∧ isAsciiPrintable versionStr = true)
    ("item " ++ toString i ++ " non-ascii name/version")
  checkContent library configType name it
  let content ← throwing (readContent library configType it) .json
  returnUnless (isAsciiPrintable (buildCanonItemJson name content versionStr) = true)
    ("item " ++ toString i ++ " canonical json not ascii")
  return { item := { name, content, itemVersion := versionStr }, value := it }

def readItems (configType : Int) (itemsArr : library.Array) :
    List Nat → Apply (List (Item library))
  | [] => .ok []
  | i :: later => do
      let item ← readItem library configType itemsArr i
      let others ← readItems configType itemsArr later
      return item :: others

/-- The file an item lands in with its content. -/
def itemFile (configType : Int) (item : Item library) : Option (String × String) :=
  if configType = 1 then do
    let arr ← library.getJSONArray item.value "config_value"
    let entries ← library.strings arr
    some (item.item.name ++ ".list", entries.foldl (fun body entry => body ++ entry ++ "\n") "")
  else do
    let obj ← library.getJSONObject item.value "config_value"
    some ("rule_enable.json", library.text obj ++ "\n")

end Items

section Apply

variable (platform : Platform)

/-- A bundle that passed the checks before its signature's. -/
structure Draft (library : OrgJson) where
  scalars : Scalars
  target : Target
  items : List (Item library)

def Draft.canonical {library : OrgJson} (draft : Draft library) : List UInt8 :=
  canonicalBytes draft.scalars.seq draft.scalars.tenant draft.scalars.version
    draft.scalars.rollback draft.target.ecu draft.target.nodeType draft.target.vmodel
    draft.scalars.issuedAt draft.scalars.expiresAt draft.scalars.bundleType
    (payloadLines (draft.items.map Item.item))

/-- Steps 1 to 3; `maxSeq` is what `loadMaxSeq` returns. -/
def readDraft (nowSec maxSeq : Int) (bundleText : String) : Apply (Draft platform.json) := do
  let bundle ← parseBundle platform.json bundleText
  requireText platform.json bundle "msg_type" "config_update"
  requireText platform.json bundle "sig_alg" "Ed25519"
  let scalars := readScalars platform.json bundle "config_type"
  returnUnless (0 < scalars.seq) "bad seq"
  returnUnless (validVersionName scalars.version = true) ("illegal version: " ++ scalars.version)
  returnUnless (scalars.bundleType = 1 ∨ scalars.bundleType = 2) "bad config_type"
  let itemsArr ← catching (platform.json.getJSONArray bundle "items") "items[] required"
  returnUnless (platform.json.length itemsArr ≠ 0) "empty items[]"
  let target ← catching (platform.json.getJSONObject bundle "target") "target missing"
  let items ← readItems platform.json scalars.bundleType itemsArr
    (List.range (platform.json.length itemsArr))
  checkTimes nowSec scalars
  checkSeq maxSeq scalars
  return { scalars, target := readTarget platform.json target, items }

/-- The file operations that may throw; a failed rename is not checked. -/
inductive Call where
  | writeItem (index : Nat) (file content : String)
  | appendAudit (index : Nat) (line : String)
  | writeVersions (text : String)
  | writeMaxSeq (text : String)
  deriving DecidableEq

def saveMaxSeq (seq : Int) : List Call := [.writeMaxSeq (toString seq ++ "\n")]

def auditLine (nowSec : Int) (scalars : Scalars) (name : String) : String :=
  let library := platform.json
  let object := library.putLong library.empty "ts" nowSec
  let object := library.putLong object "seq" scalars.seq
  let object := library.putString object "version" scalars.version
  let object := library.putLong object "config_type" scalars.bundleType
  library.text (library.putString object "config_name" name) ++ "\n"

/-- The items one after another; the versions object only changes in memory. -/
def landItems (env : Call → Bool) (nowSec : Int) (scalars : Scalars) :
    List (Item platform.json × Nat) → platform.json.Object → Apply platform.json.Object
  | [], versions => .ok versions
  | (item, index) :: later, versions => do
      let (file, content) ← throwing (itemFile platform.json scalars.bundleType item) .json
      perform env [.writeItem index file content,
        .appendAudit index (auditLine platform nowSec scalars item.item.name)]
      landItems env nowSec scalars later
        (platform.json.putString versions item.item.name item.item.itemVersion)

/-- The recorded versions; a missing, unreadable or malformed file counts as an empty object. -/
def readVersions (stored : Option String) : platform.json.Object :=
  match stored.map platform.json.ofText with
  | some (.ok versions) => versions
  | _ => platform.json.empty

/-- Step 7. -/
def land (env : Call → Bool) (nowSec : Int) (stored : Option String)
    (draft : Draft platform.json) : Apply Unit := do
  let versions ← landItems platform env nowSec draft.scalars draft.items.zipIdx
    (readVersions platform stored)
  let text ← throwing (platform.json.indented versions) .json
  perform env (.writeVersions (text ++ "\n") :: saveMaxSeq draft.scalars.seq)

/-- Steps 6 and 7; step 8 only sets properties, which never throws. -/
def conclude (env : Call → Bool) (self : DeviceIdentity) (nowSec : Int) (stored : Option String)
    (draft : Draft platform.json) : Apply (Option String) := do
  if hits platform.strings self draft.target then
    land platform env nowSec stored draft
    return none
  else
    perform env (saveMaxSeq draft.scalars.seq)
    return some "SKIP"

def apply (env : Call → Bool) (self : DeviceIdentity) (nowSec maxSeq : Int)
    (stored : Option String) (bundleText : String) : Except Thrown (Option String) :=
  resultOf do
    let draft ← readDraft platform nowSec maxSeq bundleText
    authenticate platform "verify failed" draft.canonical draft.scalars
    conclude platform env self nowSec stored draft

def onCloudMessage (env : Call → Bool) (self : DeviceIdentity) (nowSec maxSeq : Int)
    (stored : Option String) (payload : List UInt8) : Except Thrown Ending :=
  (apply platform env self nowSec maxSeq stored (platform.strings.ofBytes payload)).map endingOf

end Apply

end ConfigManager

end Idsm.Android
