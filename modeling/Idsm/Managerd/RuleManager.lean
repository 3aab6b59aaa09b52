import Idsm.Foundation.Execution
import Idsm.Managerd.RulesDir
import Idsm.Managerd.SignedBundle

/-! The rule manager: admission of a signed rule bundle and its switch-over on
disk. The environment decides for each file-system step how it ends. -/

set_option autoImplicit false

namespace Idsm.Managerd

open Idsm.Foundation
open Idsm.Json (Value)

inductive RuleApply where
  | applied
  | skipped
  | rejected (err : List UInt8)
  deriving DecidableEq

/-- An admitted bundle; only inline bundles with at least one rule are. -/
structure RuleBundle where
  header : Header
  rules : List String
  inline : header.bundleType = 1
  nonempty : rules ≠ []
  deriving DecidableEq

/-- A bundle that passed its format and time checks. -/
structure RuleDraft where
  scalars : Scalars
  target : Target
  items : List Value
  positive : 0 < scalars.seq
  named : validVersionName scalars.version = true
  inline : scalars.bundleType = 1
  nonempty : items ≠ []

/-- The signed fields of a draft. -/
def RuleDraft.header (draft : RuleDraft) : Header where
  seq := draft.scalars.seq
  tenant := draft.scalars.tenant
  version := draft.scalars.version
  rollback := draft.scalars.rollback
  target := draft.target
  issuedAt := draft.scalars.issuedAt
  expiresAt := draft.scalars.expiresAt
  bundleType := draft.scalars.bundleType
  positive := draft.positive
  named := draft.named

def ruleFields : List String :=
  ["msg_type", "manufacturer", "seq", "version", "rollback", "target", "upgrade_type",
    "issued_at", "expires_at", "sig_alg", "pubkey_id", "signature"]

/-- The non-empty array of rules, read through `contains`, `is_array` and `empty`. -/
def ruleItems (bundle : Value) : Checked { items : List Value // items ≠ [] } :=
  match bundle.member? "rules" with
  | some (.array (item :: rest)) => .ok ⟨item :: rest, List.cons_ne_nil item rest⟩
  | _ => reject "upgrade_type=1 requires non-empty rules[]"

/-- Steps 1 and 2 of the application. -/
def readRuleDraft (now : Int) (bundle : Value) : Checked RuleDraft := do
  requireFields ruleFields bundle
  requireText bundle "msg_type" "rule_update"
  requireText bundle "sig_alg" "Ed25519"
  let scalars ← unguarded (readScalars bundle "upgrade_type")
  let ⟨positive⟩ ← require (0 < scalars.seq) "bad seq"
  let ⟨named⟩ ← require (validVersionName scalars.version = true)
    ("illegal version: " ++ scalars.version)
  let _ ← require (scalars.bundleType = 1 ∨ scalars.bundleType = 2) "bad upgrade_type"
  let ⟨inline⟩ ← require (scalars.bundleType = 1)
    "upgrade_type=2 (download_uri) not supported by managerd"
  let ⟨items, nonempty⟩ ← ruleItems bundle
  let target ← readTarget (bundle.field "target")
  checkTimes now scalars
  return { scalars, target, items, positive, named, inline, nonempty }

def ruleTexts : List Value → Except Json.Error (List String)
  | [] => .ok []
  | item :: rest => do
      let text ← item.getString
      let later ← ruleTexts rest
      return text :: later

/-- `std::to_string(10000 + i)`. -/
def ruleNumber (index : Nat) : String := toString (10000 + index)

def payloadLine (index : Nat) (rule : String) : String :=
  "rule:" ++ ruleNumber index ++ ":" ++ base64Encode (utf8 rule)

def payloadLines (rules : List String) : List String :=
  sortLines (rules.zipIdx.map fun rule => payloadLine rule.2 rule.1)

def canonicalRuleBytes : (seq : Int) → (tenant version : String) → (rollback : Bool) →
    (targetEcu targetNode targetVmodel : String) → (issuedAt expiresAt upgradeType : Int) →
    (payloadLines : List String) → String :=
  canonicalBytes "upgrade_type"

def RuleBundle.canonical (bundle : RuleBundle) : String :=
  canonicalRuleBytes bundle.header.seq bundle.header.tenant bundle.header.version
    bundle.header.rollback bundle.header.target.ecu bundle.header.target.nodeType
    bundle.header.target.vmodel bundle.header.issuedAt bundle.header.expiresAt
    bundle.header.bundleType (payloadLines bundle.rules)

theorem ruleTexts_ne_nil {items : List Value} {texts : List String}
    (read : ruleTexts items = .ok texts) (nonempty : items ≠ []) : texts ≠ [] := by
  cases items with
  | nil => exact absurd rfl nonempty
  | cons item rest =>
      rw [ruleTexts] at read
      cases first : item.getString with
      | error error => simp [first, bind, Except.bind] at read
      | ok text =>
          cases later : ruleTexts rest with
          | error error => simp [first, later, bind, Except.bind] at read
          | ok others =>
              simp only [first, later, bind, Except.bind, pure, Except.pure, Except.ok.injEq]
                at read
              simp [← read]

/-- The rule texts, with a proof that there is one. -/
def readRules (draft : RuleDraft) : Except Json.Error { rules : List String // rules ≠ [] } :=
  match read : ruleTexts draft.items with
  | .error error => .error error
  | .ok rules => .ok ⟨rules, ruleTexts_ne_nil read draft.nonempty⟩

/-- `seedDir` is the image's baseline, if the image has one. -/
structure RuleManager where
  reloadCmd : String
  pubkeyB64 : String
  seedDir : Option (OrderedMap String (List UInt8))

/-- Step labels of one application, in the order of the source. -/
inductive RuleStep where
  | readMaxSeq
  | removeScratch
  | createScratch
  | writeRule (index : Nat)
  | removeVersion
  | renameVersion
  | removeLink
  | createLink
  | swapLink
  | writeMaxSeq
  | renameMaxSeq
  | reload
  deriving DecidableEq

abbrev RuleProgram (α : Type) : Type := Program RulesDir Stop α

namespace RuleManager

section Admission

variable (manager : RuleManager) (crypto : Crypto)

/-- Steps 3 to 5: the sequence number, the canonical text and its signature. -/
def authorize (maxSeq : Int) (draft : RuleDraft) : Checked RuleBundle := do
  checkSeq maxSeq draft.scalars
  let ⟨rules, nonempty⟩ ← unguarded (readRules draft)
  let bundle : RuleBundle := { header := draft.header, rules, inline := draft.inline, nonempty }
  authenticate crypto manager.pubkeyB64 "rule" bundle.canonical draft.scalars
  return bundle

/-- Every check of a parsed bundle, against the stored sequence number. -/
def accept (now maxSeq : Int) (bundle : Value) : Checked RuleBundle := do
  let draft ← readRuleDraft now bundle
  manager.authorize crypto maxSeq draft

end Admission

section Disk

variable (env : RuleStep → Fault)

def maxSeq (dir : RulesDir) : Int :=
  match dir.node? "max_seq" with
  | some (.file content) => maxSeqOf (some content)
  | _ => maxSeqOf none

def loadMaxSeq : RuleProgram Int := loadSeq (env .readMaxSeq) maxSeq

/-- An error of a failed step stands for any message of the system. -/
def failing (fault : Fault) (call : RulesDir → Except Errno RulesDir) :
    RuleProgram (Except Errno Unit) :=
  .step fault
    (fun dir =>
      match call dir with
      | .ok later => (.ok (), later)
      | .error errno => (.error errno, dir))
    (fun _ dir => dir) (.error .inputOutput)

/-- A call whose result the source drops. -/
def ignoring (fault : Fault) (call : RulesDir → RulesDir)
    (partially : Nat → RulesDir → RulesDir) : RuleProgram Unit :=
  .step fault (fun dir => ((), call dir)) partially ()

def rejectAfter (context : String) : Except Errno Unit → RuleProgram Unit
  | .ok () => pure ()
  | .error errno => .ofExcept (reject (context ++ errno.message))

def storeMaxSeq (seq : Int) : RuleProgram Unit := do
  let written ← .step (env .writeMaxSeq)
    (fun dir => dir.writeFile "max_seq.tmp" (seqText seq))
    (fun progress dir =>
      dir.cut (fun bytes => (dir.writeFile "max_seq.tmp" bytes).2) (seqText seq) progress)
    false
  let _ ← Program.ofExcept (require (written = true) "max_seq write failed")
  let renamed ← failing (env .renameMaxSeq) (·.rename "max_seq.tmp" "max_seq" rfl)
  rejectAfter "max_seq rename: " renamed

def ruleFile (index : Nat) : String := "rule_" ++ ruleNumber index ++ ".rules"

def writeRules : List (String × Nat) → RuleProgram Unit
  | [] => pure ()
  | (rule, index) :: rest => do
      ignoring (env (.writeRule index))
        (·.writeInto "rules.new" (ruleFile index) (utf8 rule))
        (fun progress dir =>
          dir.cut (dir.writeInto "rules.new" (ruleFile index)) (utf8 rule) progress)
      writeRules rest

/-- `create_directory` leaves an existing entry alone. -/
def createScratch (dir : RulesDir) : RulesDir :=
  match dir.node? "rules.new" with
  | none => dir.putDirectory "rules.new" ⟨.empty, none⟩
  | some _ => dir

/-- The renamed directory is from now on the bundle's. -/
def landScratch (bundle : RuleBundle) (dir : RulesDir) : Except Errno RulesDir :=
  (dir.rename "rules.new" bundle.header.version rfl).map fun landed =>
    match landed.node? bundle.header.version with
    | some (.directory rules) =>
        landed.putDirectory bundle.header.version { rules with origin := some bundle.header.seq }
    | _ => landed

/-- Step 7 up to the version directory. -/
def land (bundle : RuleBundle) : RuleProgram Unit := do
  ignoring (env .removeScratch) (·.erase "rules.new") (fun progress dir =>
    dir.removeSome "rules.new" progress)
  ignoring (env .createScratch) createScratch (fun _ dir => dir)
  writeRules env bundle.rules.zipIdx
  ignoring (env .removeVersion) (·.erase bundle.header.version) (fun progress dir =>
    dir.removeSome bundle.header.version progress)
  let renamed ← failing (env .renameVersion) (landScratch bundle)
  rejectAfter "rename rules.new: " renamed

/-- Make `current` a link to a directory by way of `current.tmp`. -/
def pointCurrent (removal creation swap : Fault) (name : String) :
    RuleProgram (Except Errno Unit) := do
  ignoring removal (·.removeEntry "current.tmp") (fun _ dir => dir)
  ignoring creation (·.linkCurrentTmp name) (fun _ dir => dir)
  failing swap (·.swapCurrent)

/-- The rest of step 7: the link to the version directory, then the sequence number. -/
def activate (bundle : RuleBundle) : RuleProgram Unit := do
  let swapped ← pointCurrent (env .removeLink) (env .createLink) (env .swapLink)
    bundle.header.version
  rejectAfter "current swap: " swapped
  storeMaxSeq env bundle.header.seq

def runReload (manager : RuleManager) : RuleProgram Unit :=
  if manager.reloadCmd = "" then pure ()
  else do
    let succeeded ← .step (env .reload) (fun dir => (true, dir)) (fun _ dir => dir) false
    let _ ← Program.ofExcept
      (require (succeeded = true) ("reload cmd failed: " ++ manager.reloadCmd))
    return ()

end Disk

inductive SeedStep where
  | removeV0
  | copySeed
  | removeLink
  | createLink
  | swapLink
  deriving DecidableEq

/-- The recursive copy of the image's baseline over `v0`. -/
def copySeed (files : List (String × List UInt8)) (dir : RulesDir) : Except Errno RulesDir :=
  match dir.node? "v0" with
  | none => .ok (dir.putDirectory "v0" ⟨.ofList files, none⟩)
  | some (.directory rules) =>
      .ok (dir.putDirectory "v0" ⟨rules.files.insertAll files, none⟩)
  | some _ => .error .notDirectory

/-- A cut-off copy has copied some of the files. -/
def copySome (files : List (String × List UInt8)) (progress : Nat) (dir : RulesDir) : RulesDir :=
  let copied := files.zipIdx.filter fun entry => progress.testBit entry.2
  match copySeed (copied.map (·.1)) dir with
  | .ok later => later
  | .error _ => dir

/-- The start of the daemon; the function's `false` is a refusal here. -/
def seedFromImageDefaults (manager : RuleManager) (env : SeedStep → Fault) : RuleProgram Unit := do
  let current ← Program.inspect fun dir => dir.resolve 40 "current"
  match current, manager.seedDir with
  | some _, _ => return ()
  | none, none => return ()
  | none, some seed => do
      ignoring (env .removeV0) (·.erase "v0") (fun progress dir => dir.removeSome "v0" progress)
      let copied ← .step (env .copySeed)
        (fun dir =>
          match copySeed seed.entries dir with
          | .ok later => (.ok (), later)
          | .error errno => (.error errno, dir))
        (copySome seed.entries) (.error .inputOutput)
      rejectAfter "seed copy: " copied
      let swapped ← pointCurrent (env .removeLink) (env .createLink) (env .swapLink) "v0"
      rejectAfter "seed symlink: " swapped

/-- Steps 7 and 8. -/
def switchOver (manager : RuleManager) (env : RuleStep → Fault) (bundle : RuleBundle) :
    RuleProgram RuleApply := do
  land env bundle
  activate env bundle
  runReload env manager
  return .applied

/-- Step 6: a bundle for other devices only uses up its sequence number. -/
def conclude (manager : RuleManager) (env : RuleStep → Fault) (self : DeviceIdentity)
    (bundle : RuleBundle) : RuleProgram RuleApply :=
  if bundle.header.target.hits self then manager.switchOver env bundle
  else do
    storeMaxSeq env bundle.header.seq
    return .skipped

/-- The body of `applyBundle` after parsing, without the refusals' results. -/
def applyChecked (manager : RuleManager) (crypto : Crypto) (env : RuleStep → Fault)
    (self : DeviceIdentity) (now : Int) (bundle : Value) : RuleProgram RuleApply :=
  admitThen (readRuleDraft now bundle) (loadMaxSeq env) (manager.authorize crypto)
    (manager.conclude env self)

/-- A refusal is a result; an exception of the JSON library leaves the function. -/
def refusal : Stop → Except Json.Error RuleApply
  | .rejected err => .ok (.rejected err)
  | .threw error => .error error

def applyBundle (manager : RuleManager) (crypto : Crypto)
    (parse : List UInt8 → Except (List UInt8) Value) (env : RuleStep → Fault)
    (self : DeviceIdentity) (now : Int) (jsonText : List UInt8) :
    Program RulesDir Json.Error RuleApply :=
  match parse jsonText with
  | .error what => pure (.rejected (utf8 "json parse: " ++ what))
  | .ok bundle => (manager.applyChecked crypto env self now bundle).handle refusal

end RuleManager

end Idsm.Managerd
