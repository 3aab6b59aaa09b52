import Idsm.Managerd.ConfigManager
import Idsm.Managerd.RuleManager

/-! What the stops of the checks and of the two managers' programs may be. A predicate that
permits every refusal with a text holds of all of them but those of the JSON library. -/

set_option autoImplicit false

namespace Idsm.Managerd

open Idsm.Foundation
open Idsm.Json (Value)

class PermitsTexts (allowed : Stop → Prop) : Prop where
  rejected : ∀ err : String, allowed (.rejected (utf8 err))

class PermitsThrows (allowed : Stop → Prop) : Prop where
  threw : ∀ error, allowed (.threw error)

def Checked.Within {α : Type} (allowed : Stop → Prop) (checked : Checked α) : Prop :=
  ∀ stop, checked = .error stop → allowed stop

section Checks

variable {α β : Type} {allowed : Stop → Prop}

theorem within_ok (value : α) : Checked.Within allowed (.ok value) :=
  fun _ impossible => nomatch impossible

theorem Checked.Within.bind {checked : Checked α} {next : α → Checked β}
    (first : checked.Within allowed) (second : ∀ value, (next value).Within allowed) :
    Checked.Within allowed (checked >>= next) := by
  intro stop refused
  cases found : checked with
  | ok value =>
      rw [found] at refused
      exact second value stop refused
  | error earlier =>
      rw [found] at refused
      cases refused
      exact first stop found

theorem within_unguarded [PermitsThrows allowed] (accessed : Except Json.Error α) :
    Checked.Within allowed (unguarded accessed) := by
  intro stop refused
  cases accessed with
  | ok value => cases refused
  | error error =>
      cases refused
      exact PermitsThrows.threw error

variable [PermitsTexts allowed]

theorem within_reject (err : String) : Checked.Within allowed (reject err : Checked α) := by
  intro stop refused
  cases refused
  exact PermitsTexts.rejected err

theorem within_require (condition : Prop) [Decidable condition] (err : String) :
    Checked.Within allowed (require condition err) := by
  by_cases holds : condition
  · rw [require_of holds]
    exact within_ok _
  · rw [require, dif_neg holds]
    exact within_reject err

theorem within_requireFields (keys : List String) (bundle : Value) :
    (requireFields keys bundle).Within allowed := by
  unfold requireFields
  split
  · exact within_reject _
  · exact within_ok _

theorem within_targetText (target : Value) (key : String) : (targetText target key).Within allowed := by
  unfold targetText
  split
  · exact within_ok _
  · exact within_reject _

theorem within_readTarget (target : Value) : (readTarget target).Within allowed :=
  (within_targetText target "ecu").bind fun _ => (within_targetText target "nodeType").bind fun _ =>
    (within_targetText target "vmodel").bind fun _ => within_ok _

theorem within_checkTimes (now : Int) (scalars : Scalars) : (checkTimes now scalars).Within allowed :=
  (within_require _ _).bind fun _ => (within_require _ _).bind fun _ => within_ok _

theorem within_checkSeq (maxSeq : Int) (scalars : Scalars) : (checkSeq maxSeq scalars).Within allowed :=
  (within_require _ _).bind fun _ => within_ok _

variable (crypto : Crypto) (pubkeyB64 : String)

theorem within_configuredKey : (configuredKey crypto pubkeyB64).Within allowed := by
  unfold configuredKey
  split
  · exact within_reject _
  · split
    · exact within_reject _
    · exact within_ok _

theorem within_authenticate (purpose canonical : String) (scalars : Scalars) :
    (authenticate crypto pubkeyB64 purpose canonical scalars).Within allowed := by
  have verified : (verifySignature crypto pubkeyB64 purpose canonical scalars.signature).Within allowed := by
    refine (within_require _ _).bind fun _ => (within_configuredKey crypto pubkeyB64).bind fun _ => ?_
    split
    · exact within_reject _
    · exact (within_require _ _).bind fun _ => within_ok _
  have identified : (configuredPubkeyId crypto pubkeyB64).Within allowed := by
    refine (within_configuredKey crypto pubkeyB64).bind fun _ => ?_
    split
    · exact within_reject _
    · exact (within_require _ _).bind fun _ => within_ok _
  exact verified.bind fun _ => identified.bind fun _ => (within_require _ _).bind fun _ =>
    within_ok _

theorem within_listEntries (name : String) (values : List Value) :
    (listEntries name values).Within allowed := by
  induction values with
  | nil => exact within_ok _
  | cons value rest ih =>
      cases value with
      | string entry => exact (within_require _ _).bind fun _ => ih.bind fun _ => within_ok _
      | null => exact within_reject _
      | boolean flag => exact within_reject _
      | unsigned number => exact within_reject _
      | integer number => exact within_reject _
      | float number => exact within_reject _
      | array items => exact within_reject _
      | object members => exact within_reject _

theorem within_enableFlags (members : List (String × Value)) : (enableFlags members).Within allowed := by
  induction members with
  | nil => exact within_ok _
  | cons member rest ih =>
      obtain ⟨key, value⟩ := member
      rw [enableFlags]
      split
      · exact within_reject _
      · exact ih.bind fun _ => within_ok _

theorem within_readContent (configType : Int) (name : String) (value : Value) :
    (readContent configType name value).Within allowed := by
  unfold readContent
  split
  · refine (within_require _ _).bind fun _ => ?_
    split
    · exact (within_listEntries _ _).bind fun _ => within_ok _
    · exact within_reject _
  · refine (within_require _ _).bind fun _ => ?_
    split
    · exact (within_enableFlags _).bind fun _ => within_ok _
    · exact within_reject _

theorem within_ruleItems (bundle : Value) : (ruleItems bundle).Within allowed := by
  unfold ruleItems
  split
  · exact within_ok _
  · exact within_reject _

theorem within_itemValues (bundle : Value) : (itemValues bundle).Within allowed := by
  unfold itemValues
  split
  · exact within_ok _
  · exact within_reject _

section Unguarded

variable [PermitsThrows allowed]

theorem within_requireText (bundle : Value) (key text : String) :
    (requireText bundle key text).Within allowed :=
  (within_unguarded _).bind fun _ => (within_require _ _).bind fun _ => within_ok _

theorem within_readRuleDraft (now : Int) (bundle : Value) : (readRuleDraft now bundle).Within allowed :=
  (within_requireFields _ _).bind fun _ => (within_requireText _ _ _).bind fun _ =>
    (within_requireText _ _ _).bind fun _ => (within_unguarded _).bind fun _ =>
    (within_require _ _).bind fun _ => (within_require _ _).bind fun _ =>
    (within_require _ _).bind fun _ => (within_require _ _).bind fun _ =>
    (within_ruleItems _).bind fun _ => (within_readTarget _).bind fun _ => (within_checkTimes _ _).bind fun _ =>
    within_ok _

theorem within_readItems (configType : Int) (values : List Value) :
    (readItems configType values).Within allowed := by
  induction values with
  | nil => exact within_ok _
  | cons it rest ih =>
      have item : (readItem configType it).Within allowed :=
        (within_require _ _).bind fun _ => (within_unguarded _).bind fun _ =>
          (within_unguarded _).bind fun _ => (within_require _ _).bind fun _ =>
          (within_readContent _ _ _).bind fun _ => (within_require _ _).bind fun _ => within_ok _
      exact item.bind fun _ => ih.bind fun _ => within_ok _

theorem within_readConfigDraft (now : Int) (bundle : Value) :
    (readConfigDraft now bundle).Within allowed := by
  have items : ∀ configType values, (checkItems configType values).Within allowed := by
    intro configType values
    unfold checkItems
    split
    next stop read =>
      intro other refused
      cases refused
      exact within_readItems _ _ _ read
    next => exact within_ok _
  exact (within_requireFields _ _).bind fun _ => (within_requireText _ _ _).bind fun _ =>
    (within_requireText _ _ _).bind fun _ => (within_unguarded _).bind fun _ =>
    (within_require _ _).bind fun _ => (within_require _ _).bind fun _ =>
    (within_require _ _).bind fun _ => (within_itemValues _).bind fun _ => (within_readTarget _).bind fun _ =>
    (items _ _).bind fun _ => (within_checkTimes _ _).bind fun _ => within_ok _

end Unguarded

end Checks

/-! The programs of the managers. -/

section Managers

variable {σ α : Type} {allowed : Stop → Prop}

/-- The program throws nothing but what is allowed. -/
abbrev Stops (allowed : Stop → Prop) (program : Program σ Stop α) : Prop :=
  program.Ends (fun _ => True) allowed

theorem ends_ofExcept {checked : Checked α} (within : checked.Within allowed) :
    Stops allowed (Program.ofExcept checked : Program σ Stop α) :=
  Program.Ends.ofExcept fun stop refused => within stop refused

theorem ends_admitThen {draft bundle : Type} {read : Checked draft} {load : Program σ Stop Int}
    {authorize : Int → draft → Checked bundle} {conclude : bundle → Program σ Stop α}
    {results : α → Prop} (reads : read.Within allowed) (loads : Stops allowed load)
    (authorizes : ∀ maxSeq draft, (authorize maxSeq draft).Within allowed)
    (concludes : ∀ bundle, (conclude bundle).Ends results allowed) :
    (admitThen read load authorize conclude).Ends results allowed :=
  (ends_ofExcept reads).bind fun _ => loads.bind fun _ =>
    (ends_ofExcept (authorizes _ _)).bind fun _ => concludes _

namespace RuleManager

variable (manager : RuleManager) (env : RuleStep → Fault)

theorem ends_writeRules (rules : List (String × Nat)) : Stops allowed (writeRules env rules) := by
  induction rules with
  | nil => exact Program.Ends.pure trivial
  | cons rule rest ih => exact Program.Ends.step.bind fun _ => ih

variable [PermitsTexts allowed]

theorem ends_rejectAfter (context : String) (result : Except Errno Unit) :
    Stops allowed (rejectAfter context result) := by
  cases result with
  | ok value => exact Program.Ends.pure trivial
  | error errno => exact ends_ofExcept (within_reject _)

theorem ends_storeMaxSeq (seq : Int) : Stops allowed (storeMaxSeq env seq) :=
  Program.Ends.step.bind fun _ => (ends_ofExcept (within_require _ _)).bind fun _ =>
    Program.Ends.step.bind fun _ => ends_rejectAfter _ _

theorem ends_runReload : Stops allowed (runReload env manager) := by
  unfold runReload
  split
  · exact Program.Ends.pure trivial
  · exact Program.Ends.step.bind fun _ => (ends_ofExcept (within_require _ _)).bind fun _ =>
      Program.Ends.pure trivial

theorem ends_conclude (self : DeviceIdentity) (bundle : RuleBundle) :
    (manager.conclude env self bundle).Ends (fun result => ∀ err, result ≠ .rejected err) allowed := by
  have landed : Stops allowed (land env bundle) :=
    Program.Ends.step.bind fun _ => Program.Ends.step.bind fun _ =>
      (ends_writeRules env _).bind fun _ => Program.Ends.step.bind fun _ =>
      Program.Ends.step.bind fun _ => ends_rejectAfter _ _
  have pointed : Stops allowed (pointCurrent (env .removeLink) (env .createLink) (env .swapLink)
      bundle.header.version) :=
    Program.Ends.step.bind fun _ => Program.Ends.step.bind fun _ => Program.Ends.step
  have activated : Stops allowed (activate env bundle) :=
    pointed.bind fun _ => (ends_rejectAfter _ _).bind fun _ => ends_storeMaxSeq env _
  unfold conclude
  split
  · exact landed.bind fun _ => activated.bind fun _ => (ends_runReload manager env).bind fun _ =>
      Program.Ends.pure fun _ impossible => nomatch impossible
  · exact (ends_storeMaxSeq env _).bind fun _ => Program.Ends.pure fun _ impossible => nomatch impossible

theorem ends_applyChecked [PermitsThrows allowed] (crypto : Crypto) (self : DeviceIdentity) (now : Int) (bundle : Value) :
    (manager.applyChecked crypto env self now bundle).Ends (fun result => ∀ err, result ≠ .rejected err)
      allowed :=
  ends_admitThen (within_readRuleDraft now bundle) Program.Ends.step
    (fun _ _ => (within_checkSeq _ _).bind fun _ => (within_unguarded _).bind fun _ =>
      (within_authenticate _ _ _ _ _).bind fun _ => within_ok _)
    (ends_conclude manager env self)

end RuleManager

namespace ConfigManager

variable (manager : ConfigManager) (library : ConfigLibrary) (env : ConfigStep → Fault)
  [PermitsTexts allowed]

theorem ends_storeMaxSeq (seq : Int) : Stops allowed (storeMaxSeq env seq) :=
  Program.Ends.step.bind fun _ => (ends_ofExcept (within_require _ _)).bind fun _ =>
    Program.Ends.step.bind fun _ => (ends_ofExcept (within_require _ _)).bind fun _ =>
    Program.Ends.pure trivial

theorem ends_atomicWrite (writeFault renameFault : Fault) (file : String) (content : List UInt8) :
    Stops allowed (atomicWrite manager writeFault renameFault file content) :=
  Program.Ends.step.bind fun _ => (ends_ofExcept (within_require _ _)).bind fun _ =>
    Program.Ends.step.bind fun _ => (ends_ofExcept (within_require _ _)).bind fun _ =>
    Program.Ends.pure trivial

theorem ends_runReload : Stops allowed (runReload manager env) := by
  unfold runReload
  split
  · exact Program.Ends.pure trivial
  · exact Program.Ends.step.bind fun _ => (ends_ofExcept (within_require _ _)).bind fun _ =>
      Program.Ends.pure trivial

theorem ends_landItems [PermitsThrows allowed] (now : Int) (bundle : ConfigBundle) (items : List (ConfigItem × Nat))
    (versions : Value) : Stops allowed (landItems manager library env now bundle items versions) := by
  induction items generalizing versions with
  | nil => exact Program.Ends.pure trivial
  | cons item rest ih =>
      exact (ends_atomicWrite manager _ _ _ _).bind fun _ =>
        (ends_ofExcept (within_unguarded _)).bind fun _ => Program.Ends.step.bind fun _ => ih _

theorem ends_conclude [PermitsThrows allowed] (self : DeviceIdentity) (now : Int) (bundle : ConfigBundle) :
    (conclude manager library env self now bundle).Ends (fun result => ∀ err, result ≠ .rejected err)
      allowed := by
  unfold conclude
  split
  · exact Program.Ends.step.bind fun _ => Program.Ends.step.bind fun _ =>
      (ends_landItems manager library env now bundle _ _).bind fun _ =>
      (ends_atomicWrite manager _ _ _ _).bind fun _ => (ends_storeMaxSeq env _).bind fun _ =>
      (ends_runReload manager env).bind fun _ => Program.Ends.pure fun _ impossible => nomatch impossible
  · exact (ends_storeMaxSeq env _).bind fun _ => Program.Ends.pure fun _ impossible => nomatch impossible

theorem ends_applyChecked [PermitsThrows allowed] (crypto : Crypto) (self : DeviceIdentity) (now : Int) (bundle : Value) :
    (applyChecked manager library env crypto self now bundle).Ends
      (fun result => ∀ err, result ≠ .rejected err) allowed :=
  ends_admitThen (within_readConfigDraft now bundle) Program.Ends.step
    (fun _ _ => (within_checkSeq _ _).bind fun _ => (within_authenticate _ _ _ _ _).bind fun _ =>
      within_ok _)
    (ends_conclude manager library env self now)

end ConfigManager


end Managers

end Idsm.Managerd
