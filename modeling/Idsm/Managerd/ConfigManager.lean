import Idsm.Foundation.Execution
import Idsm.Foundation.Program
import Idsm.Json.Dump
import Idsm.Managerd.SignedBundle

/-! The configuration manager: admission of a signed configuration bundle and its
landing file by file. The environment decides for each file-system step how it ends. -/

set_option autoImplicit false

namespace Idsm.Managerd

open Idsm.Foundation
open Idsm.Json (Value Binary64 dump)

inductive ConfigApply where
  | applied
  | skipped
  | rejected (err : List UInt8)
  deriving DecidableEq

def isAsciiPrintable (s : String) : Bool :=
  s.toList.all fun c => 0x20 ≤ c.toNat && c.toNat ≤ 0x7e

def listNames : List String :=
  ["app_w_list", "process_w_list", "fw_ip_w_list", "fw_ip_b_list", "fw_port_w_list",
    "fw_port_b_list"]

def validListName (name : String) : Bool := listNames.contains name

/-- What a valid `config_value` says: the lines of a list, or the rules to switch. -/
inductive ConfigContent where
  | list (entries : List String)
  | enable (flags : OrderedMap String Bool)
  deriving DecidableEq

def flagValue (flag : Bool) : Value := .unsigned (if flag then 1 else 0)

def ConfigContent.value : ConfigContent → Value
  | .list entries => .array (entries.map .string)
  | .enable flags => .object (flags.entries.map fun flag => (flag.1, flagValue flag.2))

structure ConfigItem where
  name : String
  content : ConfigContent
  itemVersion : String
  deriving DecidableEq

/-- The item's JSON text; no number in it has a fraction. -/
def ConfigItem.canonJson (item : ConfigItem) : String :=
  dump (fun _ => "") (.object [("config_name", .string item.name),
    ("config_value", item.content.value), ("config_version", .string item.itemVersion)]) none

def itemLine (name json : String) : String := "item:" ++ name ++ ":" ++ base64Encode (utf8 json)

def ConfigItem.canonicalLine (item : ConfigItem) : String := itemLine item.name item.canonJson

/-- A bundle that passed its format and time checks. -/
structure ConfigDraft where
  scalars : Scalars
  target : Target
  items : List ConfigItem
  positive : 0 < scalars.seq
  named : validVersionName scalars.version = true
  kind : scalars.bundleType = 1 ∨ scalars.bundleType = 2
  nonempty : items ≠ []

/-- The signed fields of a draft. -/
def ConfigDraft.header (draft : ConfigDraft) : Header where
  seq := draft.scalars.seq
  tenant := draft.scalars.tenant
  version := draft.scalars.version
  rollback := draft.scalars.rollback
  target := draft.target
  issuedAt := draft.scalars.issuedAt
  expiresAt := draft.scalars.expiresAt
  bundleType := draft.scalars.bundleType
  positive := draft.positive
  named := draft.named

/-- An admitted bundle. -/
structure ConfigBundle where
  header : Header
  items : List ConfigItem
  kind : header.bundleType = 1 ∨ header.bundleType = 2
  nonempty : items ≠ []
  deriving DecidableEq

/-- The bundle a draft becomes once it is authentic. -/
def ConfigDraft.bundle (draft : ConfigDraft) : ConfigBundle where
  header := draft.header
  items := draft.items
  kind := draft.kind
  nonempty := draft.nonempty

def configFields : List String :=
  ["msg_type", "manufacturer", "seq", "version", "rollback", "target", "config_type", "items",
    "issued_at", "expires_at", "sig_alg", "pubkey_id", "signature"]

section Items

def listEntries (name : String) : List Value → Checked (List String)
  | [] => .ok []
  | .string entry :: rest => do
      let _ ← require (isAsciiPrintable entry = true) (name ++ ": non-ascii or non-string entry")
      let later ← listEntries name rest
      return entry :: later
  | _ :: _ => reject (name ++ ": non-ascii or non-string entry")

/-- Reading a whole number as `long long` wraps. -/
def flagOf (value : Value) : Option Bool :=
  match value.isNumberInteger, value.getLongLong with
  | true, .ok 0 => some false
  | true, .ok 1 => some true
  | _, _ => none

def enableFlags : List (String × Value) → Checked (List (String × Bool))
  | [] => .ok []
  | (key, value) :: rest =>
      match flagOf value with
      | none => reject ("rule_enable: value of " ++ key ++ " must be 0|1")
      | some flag => do
          let later ← enableFlags rest
          return (key, flag) :: later

def readContent (configType : Int) (name : String) (value : Value) : Checked ConfigContent :=
  if configType = 1 then do
    let _ ← require (validListName name = true) ("unknown config_name: " ++ name)
    match value with
    | .array items =>
        let entries ← listEntries name items
        return .list entries
    | _ => reject (name ++ ": config_value must be array<string>")
  else do
    let _ ← require (name = "rule_enable") ("config_type=2 only supports rule_enable, got " ++ name)
    match value with
    | .object (member :: members) =>
        let flags ← enableFlags (Json.membersOf (member :: members)).entries
        return .enable (.ofList flags)
    | _ => reject "rule_enable: config_value must be non-empty object"

def itemFields : List String := ["config_name", "config_value", "config_version"]

def readItem (configType : Int) (it : Value) : Checked ConfigItem := do
  let _ ← require (it.isObject = true ∧ ∀ key ∈ itemFields, it.contains key = true)
    "item missing config_name/config_value/config_version"
  let name ← unguarded (it.field "config_name").getString
  let itemVersion ← unguarded (it.field "config_version").getString
  let _ ← require (isAsciiPrintable name = true ∧ isAsciiPrintable itemVersion = true)
    "item non-ascii name/version"
  let content ← readContent configType name (it.field "config_value")
  let item : ConfigItem := { name, content, itemVersion }
  let _ ← require (isAsciiPrintable item.canonJson = true) "item canonical json not ascii"
  return item

def readItems (configType : Int) : List Value → Checked (List ConfigItem)
  | [] => .ok []
  | it :: rest => do
      let item ← readItem configType it
      let later ← readItems configType rest
      return item :: later

theorem readItems_ne_nil {configType : Int} {values : List Value} {items : List ConfigItem}
    (read : readItems configType values = .ok items) (nonempty : values ≠ []) : items ≠ [] := by
  cases values with
  | nil => exact absurd rfl nonempty
  | cons it rest =>
      rw [readItems, bind_eq_ok] at read
      obtain ⟨item, _, read⟩ := read
      rw [bind_eq_ok] at read
      obtain ⟨later, _, read⟩ := read
      cases read
      simp

/-- The non-empty array of items. -/
def itemValues (bundle : Value) : Checked { values : List Value // values ≠ [] } :=
  match bundle.field "items" with
  | .array (value :: rest) => .ok ⟨value :: rest, by simp⟩
  | _ => reject "items[] required and non-empty"

/-- The items, with a proof that there is one. -/
def checkItems (configType : Int) (values : { values : List Value // values ≠ [] }) :
    Checked { items : List ConfigItem // items ≠ [] } :=
  match read : readItems configType values.val with
  | .error stop => .error stop
  | .ok items => .ok ⟨items, readItems_ne_nil read values.property⟩

end Items

/-- Steps 1 and 2 of the application. -/
def readConfigDraft (now : Int) (bundle : Value) : Checked ConfigDraft := do
  requireFields configFields bundle
  requireText bundle "msg_type" "config_update"
  requireText bundle "sig_alg" "Ed25519"
  let scalars ← unguarded (readScalars bundle "config_type")
  let ⟨positive⟩ ← require (0 < scalars.seq) "bad seq"
  let ⟨named⟩ ← require (validVersionName scalars.version = true)
    ("illegal version: " ++ scalars.version)
  let ⟨kind⟩ ← require (scalars.bundleType = 1 ∨ scalars.bundleType = 2) "bad config_type"
  let values ← itemValues bundle
  let target ← readTarget (bundle.field "target")
  let ⟨items, nonempty⟩ ← checkItems scalars.bundleType values
  checkTimes now scalars
  return { scalars, target, items, positive, named, kind, nonempty }

def itemLines (items : List ConfigItem) : List String :=
  sortLines (items.map ConfigItem.canonicalLine)

def canonicalConfigBytes : (seq : Int) → (tenant version : String) → (rollback : Bool) →
    (targetEcu targetNode targetVmodel : String) → (issuedAt expiresAt configType : Int) →
    (payloadLines : List String) → String :=
  canonicalBytes "config_type"

def ConfigBundle.canonical (bundle : ConfigBundle) : String :=
  canonicalConfigBytes bundle.header.seq bundle.header.tenant bundle.header.version
    bundle.header.rollback bundle.header.target.ecu bundle.header.target.nodeType
    bundle.header.target.vmodel bundle.header.issuedAt bundle.header.expiresAt
    bundle.header.bundleType (itemLines bundle.items)

/-- The configuration directory: the files under `current` once it exists, and the
manager's own files beside it. -/
structure ConfigDir where
  current : Option (OrderedMap String (List UInt8))
  maxSeqFile : Option (List UInt8)
  maxSeqTmp : Option (List UInt8)
  audit : List UInt8
  deriving DecidableEq

namespace ConfigDir

def file? (dir : ConfigDir) (name : String) : Option (List UInt8) :=
  dir.current.bind fun files => files.find? name

/-- Writing below `current` needs the directory. -/
def write (dir : ConfigDir) (name : String) (content : List UInt8) : Bool × ConfigDir :=
  match dir.current with
  | none => (false, dir)
  | some files => (true, { dir with current := some (files.insert name content) })

/-- What a cut-off write has left of its text; nothing when the file was not opened. -/
def cutText (content : List UInt8) : Nat → Option (List UInt8)
  | 0 => none
  | progress + 1 => some (content.take progress)

def writeSome (dir : ConfigDir) (name : String) (content : List UInt8) (progress : Nat) :
    ConfigDir :=
  match cutText content progress with
  | none => dir
  | some written => (dir.write name written).2

/-- `rename` of a file just written beside its place. -/
def moveInto (dir : ConfigDir) (tmp file : String) : Bool × ConfigDir :=
  match dir.current, dir.file? tmp with
  | some files, some content =>
      (true, { dir with current := some ((files.erase tmp).insert file content) })
  | _, _ => (false, dir)

end ConfigDir

/-- What the directory configures: every file under `current`, and the number. -/
structure Configuration where
  files : String → Option (List UInt8)
  maxSeq : Option (List UInt8)

def ConfigDir.configuration (dir : ConfigDir) : Configuration := ⟨dir.file?, dir.maxSeqFile⟩

/-- The libraries' functions a manager rests on; `parseStream` reads one value from
the head of a text. -/
structure ConfigLibrary where
  parse : List UInt8 → Except (List UInt8) Value
  parseStream : List UInt8 → Except (List UInt8) Value
  floatText : Binary64 → String

structure ConfigManager where
  configDir : String
  reloadCmd : String
  pubkeyB64 : String

/-- Step labels of one application; an item's steps carry its position. -/
inductive ConfigStep where
  | readMaxSeq
  | createCurrent
  | readVersions
  | writeItem (index : Nat)
  | renameItem (index : Nat)
  | appendAudit (index : Nat)
  | writeVersions
  | renameVersions
  | writeMaxSeq
  | renameMaxSeq
  | reload
  deriving DecidableEq

abbrev ConfigProgram (α : Type) : Type := Program ConfigDir Stop α

/-- `dir / name`. -/
def joinPath (dir name : String) : String :=
  if dir = "" ∨ dir.endsWith "/" = true then dir ++ name else dir ++ "/" ++ name

namespace ConfigManager

section Admission

variable (manager : ConfigManager) (crypto : Crypto)

/-- Steps 3 to 5: the sequence number, the canonical text and its signature. -/
def authorize (maxSeq : Int) (draft : ConfigDraft) : Checked ConfigBundle := do
  checkSeq maxSeq draft.scalars
  authenticate crypto manager.pubkeyB64 "config" draft.bundle.canonical draft.scalars
  return draft.bundle

/-- Every check of a parsed bundle, against the stored sequence number. -/
def accept (now maxSeq : Int) (bundle : Value) : Checked ConfigBundle := do
  let draft ← readConfigDraft now bundle
  manager.authorize crypto maxSeq draft

end Admission

section Disk

variable (manager : ConfigManager) (env : ConfigStep → Fault)

def maxSeq (dir : ConfigDir) : Int := maxSeqOf dir.maxSeqFile

def loadMaxSeq : ConfigProgram Int := loadSeq (env .readMaxSeq) maxSeq

def storeMaxSeq (seq : Int) : ConfigProgram Unit := do
  let written ← .step (env .writeMaxSeq)
    (fun dir => (true, { dir with maxSeqTmp := some (seqText seq) }))
    (fun progress dir =>
      { dir with maxSeqTmp := (ConfigDir.cutText (seqText seq) progress).or dir.maxSeqTmp })
    false
  let _ ← Program.ofExcept (require (written = true) "max_seq write failed")
  let renamed ← .step (env .renameMaxSeq)
    (fun dir => (true, { dir with maxSeqFile := dir.maxSeqTmp, maxSeqTmp := none }))
    (fun _ dir => dir) false
  let _ ← Program.ofExcept (require (renamed = true) "max_seq rename: Input/output error")
  return ()

def currentPath (name : String) : String := joinPath (joinPath manager.configDir "current") name

/-- The temporary file is written, then renamed. -/
def atomicWrite (writeFault renameFault : Fault) (file : String) (content : List UInt8) :
    ConfigProgram Unit := do
  let tmp := file ++ ".tmp"
  let written ← .step writeFault (fun dir => dir.write tmp content)
    (fun progress dir => dir.writeSome tmp content progress) false
  let _ ← Program.ofExcept (require (written = true) ("write " ++ manager.currentPath tmp))
  let renamed ← .step renameFault (fun dir => dir.moveInto tmp file) (fun _ dir => dir) false
  let _ ← Program.ofExcept
    (require (renamed = true) ("rename " ++ manager.currentPath file ++ ": Input/output error"))
  return ()

def runReload : ConfigProgram Unit :=
  if manager.reloadCmd = "" then pure ()
  else do
    let succeeded ← .step (env .reload) (fun dir => (true, dir)) (fun _ dir => dir) false
    let _ ← Program.ofExcept
      (require (succeeded = true) ("reload cmd failed: " ++ manager.reloadCmd))
    return ()

end Disk

def versionsFile : String := "_versions.json"

/-- The file an item lands in. -/
def itemFile (item : ConfigItem) : String :=
  match item.content with
  | .list _ => item.name ++ ".list"
  | .enable _ => "rule_enable.json"

def itemBody (item : ConfigItem) : List UInt8 :=
  match item.content with
  | .list entries => utf8 (entries.foldl (fun body entry => body ++ entry ++ "\n") "")
  | .enable _ => utf8 (dump (fun _ => "") item.content.value none ++ "\n")

section Landing

variable (manager : ConfigManager) (library : ConfigLibrary) (env : ConfigStep → Fault)

def createCurrent : ConfigProgram Unit :=
  .step (env .createCurrent) (fun dir => ((), { dir with current := dir.current.or (some .empty) }))
    (fun _ dir => dir) ()

/-- The recorded versions; a missing, unreadable or malformed file counts as an empty object. -/
def versionsOf (content : Option (List UInt8)) : Value :=
  match content with
  | none => .object []
  | some text =>
      match library.parseStream text with
      | .ok versions => versions
      | .error _ => .object []

def readVersions : ConfigProgram Value :=
  .step (env .readVersions)
    (fun dir => (versionsOf library (dir.file? versionsFile), dir)) (fun _ dir => dir) (.object [])

def auditLine (now : Int) (bundle : ConfigBundle) (item : ConfigItem) : List UInt8 :=
  utf8 (dump library.floatText (.object [("ts", .integer (.ofInt now)),
    ("seq", .integer (.ofInt bundle.header.seq)), ("version", .string bundle.header.version),
    ("config_type", .integer (.ofInt bundle.header.bundleType)),
    ("config_name", .string item.name)]) none ++ "\n")

/-- A cut-off append leaves the bytes it wrote. -/
def appendAudit (index : Nat) (line : List UInt8) : ConfigProgram Unit :=
  .step (env (.appendAudit index)) (fun dir => ((), { dir with audit := dir.audit ++ line }))
    (fun progress dir => { dir with audit := dir.audit ++ line.take progress }) ()

/-- The items one after another; the versions object only changes in memory. -/
def landItems (now : Int) (bundle : ConfigBundle) :
    List (ConfigItem × Nat) → Value → ConfigProgram Value
  | [], versions => pure versions
  | (item, index) :: rest, versions => do
      atomicWrite manager (env (.writeItem index)) (env (.renameItem index)) (itemFile item)
        (itemBody item)
      let versions ← Program.ofExcept
        (unguarded (versions.assign item.name (.string item.itemVersion)))
      appendAudit env index (auditLine library now bundle item)
      landItems now bundle rest versions

def versionsText (versions : Value) : List UInt8 :=
  utf8 (dump library.floatText versions (some 1) ++ "\n")

/-- Steps 7 and 8. -/
def land (now : Int) (bundle : ConfigBundle) : ConfigProgram ConfigApply := do
  createCurrent env
  let installed ← readVersions library env
  let versions ← landItems manager library env now bundle bundle.items.zipIdx installed
  atomicWrite manager (env .writeVersions) (env .renameVersions) versionsFile
    (versionsText library versions)
  storeMaxSeq env bundle.header.seq
  runReload manager env
  return .applied

/-- Step 6: a bundle for other devices only uses up its sequence number. -/
def conclude (self : DeviceIdentity) (now : Int) (bundle : ConfigBundle) :
    ConfigProgram ConfigApply :=
  if bundle.header.target.hits self then land manager library env now bundle
  else do
    storeMaxSeq env bundle.header.seq
    return .skipped

/-- The body of `applyBundle` after parsing, without the refusals' results. -/
def applyChecked (crypto : Crypto) (self : DeviceIdentity) (now : Int) (bundle : Value) :
    ConfigProgram ConfigApply :=
  admitThen (readConfigDraft now bundle) (loadMaxSeq env) (manager.authorize crypto)
    (conclude manager library env self now)

/-- A refusal is a result; an exception of the JSON library leaves the function. -/
def refusal : Stop → Except Json.Error ConfigApply
  | .rejected err => .ok (.rejected err)
  | .threw error => .error error

def applyBundle (crypto : Crypto) (self : DeviceIdentity) (now : Int) (jsonText : List UInt8) :
    Program ConfigDir Json.Error ConfigApply :=
  match library.parse jsonText with
  | .error what => pure (.rejected (utf8 "json parse: " ++ what))
  | .ok bundle => (applyChecked manager library env crypto self now bundle).handle refusal

end Landing

end ConfigManager

end Idsm.Managerd
