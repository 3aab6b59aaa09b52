import Idsm.Managerd.CertManager
import Idsm.Managerd.ConfigAdmissionProperties
import Idsm.Managerd.LogSnapshot
import Idsm.Managerd.Registration
import Idsm.Managerd.RuleAdmissionProperties
import Idsm.Managerd.StopProperties
import Idsm.Managerd.VsocEnvelope

/-! When an exception of the JSON library leaves an entry point of the daemon: a field that
is read by an unguarded accessor has another kind than the accessor's. -/

set_option autoImplicit false

namespace Idsm.Managerd

open Idsm.Foundation
open Idsm.Json (Value)

/-! The kinds that the accessors read. -/

section Accessors

variable {value : Value}

theorem reads_getString : (∃ text, value.getString = .ok text) ↔ value.isString = true := by
  cases value <;> simp [Value.getString, Value.isString]

theorem reads_getBool : (∃ flag, value.getBool = .ok flag) ↔ value.isBoolean = true := by
  cases value <;> simp [Value.getBool, Value.isBoolean]

theorem reads_getSigned (bits : Nat) :
    (∃ number, value.getSigned bits = .ok number) ↔ value.isArithmetic = true := by
  cases value <;> simp [Value.getSigned, Value.isArithmetic, Value.isNumber]

end Accessors

/-- The checks end without an exception of the library. -/
def Checked.Contained {α : Type} (checked : Checked α) : Prop :=
  ∀ error, checked ≠ .error (.threw error)

def Contained : Stop → Prop
  | .rejected _ => True
  | .threw _ => False

instance : PermitsTexts Contained := ⟨fun _ => trivial⟩

section Checks

variable {α β : Type}

theorem contained_of_within {checked : Checked α} (within : checked.Within Contained) :
    checked.Contained := fun error threw => within (.threw error) threw

@[simp] theorem contained_ok (value : α) : Checked.Contained (.ok value) :=
  fun _ impossible => nomatch impossible

@[simp] theorem contained_pure (value : α) : Checked.Contained (pure value) := contained_ok value

@[simp] theorem contained_bind (checked : Checked α) (next : α → Checked β) :
    (checked >>= next).Contained ↔
      checked.Contained ∧ ∀ value, checked = .ok value → (next value).Contained := by
  cases checked with
  | ok value => simp [bind, Except.bind]
  | error stop =>
      cases stop with
      | rejected err => simp [Checked.Contained, bind, Except.bind]
      | threw error => simp [Checked.Contained, bind, Except.bind]

@[simp] theorem contained_map (checked : Checked α) (result : α → β) :
    (result <$> checked).Contained ↔ checked.Contained := by
  cases checked with
  | ok value => simp
  | error stop =>
      cases stop with
      | rejected err => simp [Checked.Contained, Functor.map, Except.map]
      | threw error => simp [Checked.Contained, Functor.map, Except.map]

@[simp] theorem contained_require (condition : Prop) [Decidable condition] (err : String) :
    (require condition err).Contained := contained_of_within (within_require condition err)

@[simp] theorem contained_reject (err : String) : (reject err : Checked α).Contained :=
  contained_of_within (within_reject err)

@[simp] theorem contained_unguarded (accessed : Except Json.Error α) :
    (unguarded accessed).Contained ↔ ∃ value, accessed = .ok value := by
  cases accessed with
  | ok value => simp [unguarded, Except.mapError]
  | error error => simp [Checked.Contained, unguarded, Except.mapError]

theorem contained_then (checked : Checked Unit) (next : Checked β) :
    (checked >>= fun _ => next).Contained ↔
      checked.Contained ∧ (checked = .ok () → next.Contained) := by
  rw [contained_bind]
  exact and_congr_right fun _ => ⟨fun each => each (), fun last _ => last⟩

@[simp] theorem contained_requireText (bundle : Value) (key text : String) :
    (requireText bundle key text).Contained ↔ (bundle.field key).isString = true := by
  simp [requireText, reads_getString]

end Checks

/-! Programs. -/

section Programs

variable {σ α β : Type} {start : σ}

/-- No exception of the library leaves the program. -/
def Quiet (program : Program σ Stop α) (start : σ) : Prop :=
  ∀ error later, program.run start ≠ .threw (.threw error) later

theorem quiet_of_ends {results : α → Prop} {program : Program σ Stop α}
    (ends : program.Ends results Contained) : Quiet program start := by
  intro error later threw
  have reached := ends start
  rw [threw] at reached
  exact reached

theorem quiet_bind (program : Program σ Stop α) (next : α → Program σ Stop β) :
    Quiet (program >>= next) start ↔
      Quiet program start ∧
        ∀ value later, program.run start = .returned value later → Quiet (next value) later := by
  simp only [Quiet, Program.run_bind]
  cases program.run start with
  | returned value later => simp
  | threw stop later => simp
  | crashed later => simp

private theorem bind_returned {program : Program σ Stop α} {next : α → Program σ Stop β}
    {result : β} {last : σ} :
    (program >>= next).run start = .returned result last ↔
      ∃ value later, program.run start = .returned value later ∧
        (next value).run later = .returned result last := by
  rw [Program.run_bind]
  cases program.run start with
  | returned value later => simp
  | threw stop later => simp
  | crashed later => simp

theorem quiet_ofExcept_bind (checked : Checked α) (next : α → Program σ Stop β) :
    Quiet (Program.ofExcept checked >>= next) start ↔
      checked.Contained ∧ ∀ value, checked = .ok value → Quiet (next value) start := by
  cases checked with
  | ok value => simp [Quiet]
  | error stop =>
      cases stop with
      | rejected err => simp [Quiet, Checked.Contained]
      | threw error => simp [Quiet, Checked.Contained]

/-- The checks of an application and its conclusion, each as far as it is reached. -/
theorem quiet_admitThen {draft bundle : Type} {fault : Fault} {stored : σ → Int}
    {read : Checked draft} {authorize : Int → draft → Checked bundle}
    {conclude : bundle → Program σ Stop α} :
    Quiet (admitThen read (loadSeq fault stored) authorize conclude) start ↔
      read.Contained ∧ ((∀ progress, fault ≠ .crash progress) → ∀ draft, read = .ok draft →
        (authorize (seqRead fault (stored start)) draft).Contained ∧
        ∀ bundle, authorize (seqRead fault (stored start)) draft = .ok bundle →
          Quiet (conclude bundle) start) := by
  rw [admitThen, quiet_ofExcept_bind]
  refine and_congr_right fun _ => ?_
  simp only [← quiet_ofExcept_bind]
  cases fault with
  | none => exact ⟨fun quiet _ => quiet, fun quiet => quiet fun _ => by simp⟩
  | fail progress => exact ⟨fun quiet _ => quiet, fun quiet => quiet fun _ => by simp⟩
  | crash progress =>
      exact iff_of_true (by rintro _ _ _ _ ⟨⟩)
        fun alive => absurd rfl (alive progress)

/-- A handler that turns refusals into results lets only the library's exceptions pass. -/
theorem quiet_handle {program : Program σ Stop α} {handler : Stop → Except Json.Error α}
    (answers : ∀ err, ∃ result, handler (.rejected err) = .ok result)
    (passes : ∀ error, handler (.threw error) = .error error) :
    (∀ error later, (program.handle handler).run start ≠ .threw error later) ↔
      Quiet program start := by
  simp only [Quiet, Program.run_handle]
  cases program.run start with
  | returned value later => simp
  | crashed later => simp
  | threw stop later =>
      cases stop with
      | threw error => simp [passes]
      | rejected err =>
          obtain ⟨result, answered⟩ := answers err
          simp [answered]

end Programs

/-- The kinds of the scalar fields. -/
structure ScalarKinds (bundle : Value) (typeKey : String) : Prop where
  numbers : ∀ key ∈ ["seq", typeKey, "issued_at", "expires_at"],
    (bundle.field key).isArithmetic = true
  texts : ∀ key ∈ ["version", "manufacturer", "pubkey_id", "signature"],
    (bundle.field key).isString = true
  rollback : (bundle.field "rollback").isBoolean = true

theorem reads_readScalars {bundle : Value} {typeKey : String} :
    (∃ scalars, readScalars bundle typeKey = .ok scalars) ↔ ScalarKinds bundle typeKey := by
  simp only [readScalars_eq_ok]
  constructor
  · rintro ⟨scalars, facts⟩
    refine ⟨?_, ?_, reads_getBool.1 ⟨_, facts.rollback⟩⟩
    · intro key member
      simp only [List.mem_cons, List.not_mem_nil, or_false] at member
      rcases member with rfl | rfl | rfl | rfl
      · exact (reads_getSigned 64).mp ⟨_, facts.seq⟩
      · exact (reads_getSigned 32).mp ⟨_, facts.bundleType⟩
      · exact (reads_getSigned 64).mp ⟨_, facts.issuedAt⟩
      · exact (reads_getSigned 64).mp ⟨_, facts.expiresAt⟩
    · intro key member
      simp only [List.mem_cons, List.not_mem_nil, or_false] at member
      rcases member with rfl | rfl | rfl | rfl
      · exact reads_getString.1 ⟨_, facts.version⟩
      · exact reads_getString.1 ⟨_, facts.tenant⟩
      · exact reads_getString.1 ⟨_, facts.pubkeyId⟩
      · exact reads_getString.1 ⟨_, facts.signature⟩
  · rintro ⟨numbers, texts, rollback⟩
    obtain ⟨seq, seqRead⟩ := (reads_getSigned 64).mpr (numbers "seq" (by simp))
    obtain ⟨bundleType, typeRead⟩ := (reads_getSigned 32).mpr (numbers typeKey (by simp))
    obtain ⟨issuedAt, issuedRead⟩ := (reads_getSigned 64).mpr (numbers "issued_at" (by simp))
    obtain ⟨expiresAt, expiresRead⟩ := (reads_getSigned 64).mpr (numbers "expires_at" (by simp))
    obtain ⟨version, versionRead⟩ := reads_getString.2 (texts "version" (by simp))
    obtain ⟨tenant, tenantRead⟩ := reads_getString.2 (texts "manufacturer" (by simp))
    obtain ⟨pubkeyId, pubkeyRead⟩ := reads_getString.2 (texts "pubkey_id" (by simp))
    obtain ⟨signature, signatureRead⟩ := reads_getString.2 (texts "signature" (by simp))
    obtain ⟨flag, flagRead⟩ := reads_getBool.2 rollback
    exact ⟨⟨seq, version, flag, bundleType, issuedAt, expiresAt, tenant, pubkeyId, signature⟩,
      seqRead, versionRead, flagRead, typeRead, issuedRead, expiresRead, tenantRead, pubkeyRead,
      signatureRead⟩

/-- The kinds of the fields up to the scalars, each asked for only when it is reached. -/
def HeaderKinds (fields : List String) (msgType typeKey : String) (bundle : Value) : Prop :=
  (∀ key ∈ fields, bundle.contains key = true) →
    (bundle.field "msg_type").isString = true ∧
    ((bundle.field "msg_type").getString = .ok msgType →
      (bundle.field "sig_alg").isString = true ∧
      ((bundle.field "sig_alg").getString = .ok "Ed25519" → ScalarKinds bundle typeKey))

/-- The kinds that a rule bundle's fields need, against the stored number. -/
structure RuleKinds (now maxSeq : Int) (bundle : Value) : Prop where
  header : HeaderKinds ruleFields "rule_update" "upgrade_type" bundle
  rules : ∀ draft : RuleDraft, draft.ReadFrom now bundle → maxSeq < draft.scalars.seq →
    ∀ item ∈ draft.items, item.isString = true

namespace RuleManager

variable {manager : RuleManager} {crypto : Crypto} {now maxSeq : Int}

theorem reads_ruleTexts {items : List Value} :
    (∃ texts, ruleTexts items = .ok texts) ↔ ∀ item ∈ items, item.isString = true := by
  induction items with
  | nil => simp [ruleTexts]
  | cons item rest ih =>
      rw [List.forall_mem_cons, ← ih, ← reads_getString]
      constructor
      · rintro ⟨texts, read⟩
        simp only [ruleTexts, bind_eq_ok] at read
        obtain ⟨text, first, later, others, _⟩ := read
        exact ⟨⟨text, first⟩, later, others⟩
      · rintro ⟨⟨text, first⟩, later, others⟩
        exact ⟨text :: later, by simp [ruleTexts, first, others, bind, Except.bind, pure,
          Except.pure]⟩

theorem contained_readRuleDraft {bundle : Value} :
    (readRuleDraft now bundle).Contained ↔
      HeaderKinds ruleFields "rule_update" "upgrade_type" bundle := by
  have fields := contained_of_within (within_requireFields ruleFields bundle)
  have items := contained_of_within (within_ruleItems bundle)
  have target := contained_of_within (within_readTarget (bundle.field "target"))
  have times := fun scalars => contained_of_within (within_checkTimes now scalars)
  simp only [readRuleDraft, contained_then, requireFields_eq_ok, requireText_eq_ok,
    contained_requireText, HeaderKinds]
  simp [fields, items, target, times, reads_readScalars]

theorem contained_authorize {draft : RuleDraft} :
    (manager.authorize crypto maxSeq draft).Contained ↔
      (maxSeq < draft.scalars.seq → ∀ item ∈ draft.items, item.isString = true) := by
  have seq := contained_of_within (within_checkSeq maxSeq draft.scalars)
  have authentic := fun canonical scalars =>
    contained_of_within (within_authenticate crypto manager.pubkeyB64 "rule" canonical scalars)
  have texts : (∃ rules, readRules draft = .ok rules) ↔
      ∀ item ∈ draft.items, item.isString = true := by
    rw [← reads_ruleTexts]
    constructor
    · rintro ⟨rules, read⟩
      exact ⟨rules.val, readRules_eq_ok.1 read⟩
    · rintro ⟨rules, read⟩
      exact ⟨⟨rules, ruleTexts_ne_nil read draft.nonempty⟩, readRules_eq_ok.2 read⟩
  simp only [authorize, contained_then, seq, true_and, checkSeq_eq_ok]
  simp [authentic, texts]

/-- An admission ends without an exception if and only if the fields have their kinds. -/
theorem contained_accept {bundle : Value} :
    (manager.accept crypto now maxSeq bundle).Contained ↔ RuleKinds now maxSeq bundle := by
  simp only [accept, contained_bind, contained_readRuleDraft, contained_authorize,
    readRuleDraft_eq_ok]
  exact ⟨fun kinds => ⟨kinds.1, kinds.2⟩, fun kinds => ⟨kinds.header, kinds.rules⟩⟩

/-- No exception leaves `applyBundle` if and only if the fields it reaches have their kinds. -/
theorem applyBundle_quiet_iff {parse : List UInt8 → Except (List UInt8) Value}
    {env : RuleStep → Fault} {self : DeviceIdentity} {payload : List UInt8} {dir : RulesDir} :
    (∀ error later, (manager.applyBundle crypto parse env self now payload).run dir ≠
        .threw error later) ↔
      ∀ document, parse payload = .ok document →
        HeaderKinds ruleFields "rule_update" "upgrade_type" document ∧
        ((∀ progress, env .readMaxSeq ≠ .crash progress) →
          RuleKinds now (seqRead (env .readMaxSeq) (RuleManager.maxSeq dir)) document) := by
  rw [applyBundle]
  cases parsed : parse payload with
  | error what => exact iff_of_true (fun _ _ impossible => nomatch impossible) (by simp)
  | ok document =>
      have concludes : ∀ bundle, Quiet (manager.conclude env self bundle) dir := fun bundle =>
        quiet_of_ends (ends_conclude manager env self bundle)
      simp only [Except.ok.injEq, forall_eq']
      refine Iff.trans (quiet_handle ?_ ?_) ?_
      · exact fun err => ⟨.rejected err, rfl⟩
      · exact fun _ => rfl
      rw [applyChecked, loadMaxSeq, quiet_admitThen, contained_readRuleDraft]
      refine and_congr_right fun header => imp_congr_right fun _ => ?_
      simp only [concludes, implies_true, and_true, contained_authorize, readRuleDraft_eq_ok]
      exact ⟨fun rules => ⟨header, rules⟩, fun kinds => kinds.rules⟩

end RuleManager

namespace ConfigManager

variable {now maxSeq configType : Int}

/-- The kinds of an item's name and version, once it is an object with all its members. -/
def ItemKinds (it : Value) : Prop :=
  it.isObject = true ∧ (∀ key ∈ itemFields, it.contains key = true) →
    (it.field "config_name").isString = true ∧ (it.field "config_version").isString = true

theorem contained_readItem {it : Value} : (readItem configType it).Contained ↔ ItemKinds it := by
  have content := fun name => contained_of_within
    (within_readContent configType name (it.field "config_value"))
  rw [readItem, contained_bind]
  simp only [contained_require, true_and, ItemKinds]
  constructor
  · intro each present
    have reads := each ⟨present⟩ (require_of present)
    simp only [contained_bind, contained_unguarded, reads_getString] at reads
    obtain ⟨text, read⟩ := reads_getString.2 reads.1
    exact ⟨reads.1, (reads.2 text (by rw [read]; rfl)).1⟩
  · rintro kinds ⟨present⟩ _
    obtain ⟨name, version⟩ := kinds present
    simp [reads_getString, name, version, content]

/-- The items are read one after another, up to the first that is refused. -/
def ItemsKinds (configType : Int) : List Value → Prop
  | [] => True
  | it :: rest => ItemKinds it ∧ ∀ item, readItem configType it = .ok item → ItemsKinds configType rest

theorem contained_readItems {values : List Value} :
    (readItems configType values).Contained ↔ ItemsKinds configType values := by
  induction values with
  | nil => simp [readItems, ItemsKinds]
  | cons it rest ih =>
      simp only [readItems, contained_bind, contained_readItem, ih, contained_pure, implies_true,
        and_true, ItemsKinds]

/-- The checks in front of the items' have passed. -/
structure ItemsReached (bundle : Value) (scalars : Scalars)
    (values : { values : List Value // values ≠ [] }) : Prop where
  fields : ∀ key ∈ configFields, bundle.contains key = true
  msgType : (bundle.field "msg_type").getString = .ok "config_update"
  sigAlg : (bundle.field "sig_alg").getString = .ok "Ed25519"
  read : readScalars bundle "config_type" = .ok scalars
  positive : 0 < scalars.seq
  named : validVersionName scalars.version = true
  kind : scalars.bundleType = 1 ∨ scalars.bundleType = 2
  items : itemValues bundle = .ok values
  target : ∃ target, readTarget (bundle.field "target") = .ok target

/-- The kinds that a configuration bundle's fields need. -/
structure ConfigKinds (bundle : Value) : Prop where
  header : HeaderKinds configFields "config_update" "config_type" bundle
  items : ∀ scalars values, ItemsReached bundle scalars values →
    ItemsKinds scalars.bundleType values.val

theorem contained_readConfigDraft {bundle : Value} :
    (readConfigDraft now bundle).Contained ↔ ConfigKinds bundle := by
  have fields := contained_of_within (within_requireFields configFields bundle)
  have values := contained_of_within (within_itemValues bundle)
  have target := contained_of_within (within_readTarget (bundle.field "target"))
  have times := fun scalars => contained_of_within (within_checkTimes now scalars)
  have items : ∀ configType values, (checkItems configType values).Contained ↔
      ItemsKinds configType values.val := by
    intro configType values
    rw [← contained_readItems, checkItems]
    split
    next stop read => simp [read, Checked.Contained]
    next items read => simp [read]
  simp only [readConfigDraft, contained_then, requireFields_eq_ok, requireText_eq_ok,
    contained_requireText]
  simp only [fields, true_and, contained_bind, contained_unguarded, contained_require, values,
    target, items, times, contained_pure, implies_true, and_true, unguarded_eq_ok]
  constructor
  · intro each
    refine ⟨fun present => ?_, fun scalars values reached => ?_⟩
    · obtain ⟨msgType, later⟩ := each present
      refine ⟨msgType, fun msg => ⟨(later msg).1, fun alg => ?_⟩⟩
      exact reads_readScalars.1 ((later msg).2 alg).1
    · obtain ⟨target, targetRead⟩ := reached.target
      exact (((each reached.fields).2 reached.msgType).2 reached.sigAlg).2 scalars reached.read
        ⟨reached.positive⟩ (require_of _) ⟨reached.named⟩ (require_of _) ⟨reached.kind⟩
        (require_of _) values reached.items target targetRead
  · intro kinds present
    obtain ⟨msgType, later⟩ := kinds.header present
    refine ⟨msgType, fun msg => ⟨(later msg).1, fun alg => ?_⟩⟩
    refine ⟨reads_readScalars.2 ((later msg).2 alg), ?_⟩
    intro scalars read positive _ named _ kind _ values itemsRead target targetRead
    exact kinds.items scalars values ⟨present, msg, alg, read, positive.down, named.down,
      kind.down, itemsRead, target, targetRead⟩

section Landing

variable {manager : ConfigManager} {library : ConfigLibrary} {env : ConfigStep → Fault}

/-- The recorded versions take a member. -/
def Recordable (versions : Value) : Prop := versions = .null ∨ versions.isObject = true

theorem reads_assign {versions entry : Value} {key : String} :
    (∃ later, versions.assign key entry = .ok later) ↔ Recordable versions := by
  cases versions <;> simp [Value.assign, Recordable, Value.isObject]

theorem recordable_assign {versions entry later : Value} {key : String}
    (assigned : versions.assign key entry = .ok later) : Recordable later := by
  cases versions with
  | null =>
      cases assigned
      exact .inr rfl
  | object members =>
      cases assigned
      exact .inr rfl
  | boolean flag => cases assigned
  | unsigned number => cases assigned
  | integer number => cases assigned
  | float number => cases assigned
  | string text => cases assigned
  | array items => cases assigned

private theorem quiet_atomicWrite {writeFault renameFault : Fault} {file : String}
    {content : List UInt8} {start : ConfigDir} :
    Quiet (atomicWrite manager writeFault renameFault file content) start :=
  quiet_of_ends (ends_atomicWrite manager writeFault renameFault file content)

private theorem quiet_appendAudit {index : Nat} {line : List UInt8} {start : ConfigDir} :
    Quiet (appendAudit env index line) start := quiet_of_ends Program.Ends.step

variable {bundle : ConfigBundle} {versions : Value} {start : ConfigDir}

theorem quiet_landItems_of_recordable {items : List (ConfigItem × Nat)}
    (recordable : Recordable versions) :
    Quiet (landItems manager library env now bundle items versions) start := by
  induction items generalizing versions start with
  | nil => exact fun _ _ impossible => nomatch impossible
  | cons entry rest ih =>
      obtain ⟨item, index⟩ := entry
      rw [landItems, quiet_bind]
      refine ⟨quiet_atomicWrite, fun _ written _ => ?_⟩
      rw [quiet_ofExcept_bind, contained_unguarded]
      refine ⟨reads_assign.2 recordable, fun later assigned => ?_⟩
      rw [quiet_bind]
      exact ⟨quiet_appendAudit, fun _ _ _ =>
        ih (recordable_assign (unguarded_eq_ok.1 assigned))⟩

/-- Only the first item meets versions that are no object. -/
theorem quiet_landItems {item : ConfigItem} {index : Nat} {rest : List (ConfigItem × Nat)} :
    Quiet (landItems manager library env now bundle ((item, index) :: rest) versions) start ↔
      ∀ later, (atomicWrite manager (env (.writeItem index)) (env (.renameItem index))
        (itemFile item) (itemBody item)).run start = .returned () later →
          Recordable versions := by
  constructor
  · intro quiet later written
    rw [landItems, quiet_bind] at quiet
    have assigns := quiet.2 () later written
    rw [quiet_ofExcept_bind, contained_unguarded] at assigns
    exact reads_assign.1 assigns.1
  · intro recordable
    rw [landItems, quiet_bind]
    refine ⟨quiet_atomicWrite, fun _ later written => ?_⟩
    rw [quiet_ofExcept_bind, contained_unguarded]
    refine ⟨reads_assign.2 (recordable later written), fun _ assigned => ?_⟩
    rw [quiet_bind]
    exact ⟨quiet_appendAudit, fun _ _ _ =>
      quiet_landItems_of_recordable (recordable_assign (unguarded_eq_ok.1 assigned))⟩

/-- The landing up to its first item's file, with the versions it has read. -/
def firstWrite (manager : ConfigManager) (library : ConfigLibrary) (env : ConfigStep → Fault)
    (item : ConfigItem) : ConfigProgram Value := do
  createCurrent env
  let versions ← readVersions library env
  atomicWrite manager (env (.writeItem 0)) (env (.renameItem 0)) (itemFile item) (itemBody item)
  return versions

theorem quiet_land {item : ConfigItem} (first : bundle.items.head? = some item) :
    Quiet (land manager library env now bundle) start ↔
      ∀ versions later, (firstWrite manager library env item).run start =
        .returned versions later → Recordable versions := by
  obtain ⟨rest, items⟩ : ∃ rest, bundle.items.zipIdx = (item, 0) :: rest := by
    obtain ⟨others, shape⟩ := List.head?_eq_some_iff.mp first
    exact ⟨others.zipIdx 1, by rw [shape, List.zipIdx_cons]⟩
  have finish : ∀ versions later, Quiet (do
      atomicWrite manager (env .writeVersions) (env .renameVersions) versionsFile
        (versionsText library versions)
      storeMaxSeq env bundle.header.seq
      runReload manager env
      return ConfigApply.applied) later := by
    intro versions later
    refine quiet_of_ends (?_ : Stops Contained _)
    exact (ends_atomicWrite manager _ _ _ _).bind fun _ => (ends_storeMaxSeq env _).bind fun _ =>
      (ends_runReload manager env).bind fun _ => Program.Ends.pure trivial
  have creates : Quiet (createCurrent env) start := quiet_of_ends Program.Ends.step
  have reads : ∀ mid, Quiet (readVersions library env) mid := fun _ =>
    quiet_of_ends Program.Ends.step
  rw [land, items, quiet_bind, and_iff_right creates]
  constructor
  · intro quiet versions later written
    obtain ⟨_, mid, created, written⟩ := bind_returned.1 written
    obtain ⟨_, last, read, written⟩ := bind_returned.1 written
    obtain ⟨_, wrote, first, result⟩ := bind_returned.1 written
    cases result
    have lands := quiet () mid created
    rw [quiet_bind] at lands
    have lands := lands.2 versions last read
    rw [quiet_bind] at lands
    exact quiet_landItems.1 lands.1 later first
  · intro recordable _ mid created
    rw [quiet_bind, and_iff_right (reads mid)]
    intro versions last read
    rw [quiet_bind]
    refine ⟨quiet_landItems.2 fun later first => ?_, fun versions later _ => finish versions later⟩
    refine recordable versions later (bind_returned.2 ⟨(), mid, created, ?_⟩)
    refine bind_returned.2 ⟨versions, last, read, ?_⟩
    exact bind_returned.2 ⟨(), later, first, rfl⟩

/-- Versions that an authentic bundle for this device meets once its first file is written. -/
def LandingKinds (manager : ConfigManager) (library : ConfigLibrary) (env : ConfigStep → Fault)
    (self : DeviceIdentity) (dir : ConfigDir) (bundle : ConfigBundle) : Prop :=
  bundle.header.target.hits self = true → ∀ item, bundle.items.head? = some item →
    ∀ versions later, (firstWrite manager library env item).run dir = .returned versions later →
      Recordable versions

theorem quiet_conclude {self : DeviceIdentity} :
    Quiet (conclude manager library env self now bundle) start ↔
      LandingKinds manager library env self start bundle := by
  rw [conclude, LandingKinds]
  split
  next hit =>
    obtain ⟨item, first⟩ : ∃ item, bundle.items.head? = some item := by
      rw [← Option.isSome_iff_exists, List.isSome_head?]
      exact bundle.nonempty
    rw [quiet_land first]
    constructor
    · intro recordable _ other same
      rw [first] at same
      cases same
      exact recordable
    · exact fun recordable => recordable hit item first
  next miss =>
    refine iff_of_true (quiet_of_ends (?_ : Stops Contained _)) fun hit => absurd hit miss
    exact (ends_storeMaxSeq env _).bind fun _ => Program.Ends.pure trivial

/-- No exception leaves `applyBundle` if and only if the fields it reaches, and the recorded
versions, have their kinds. -/
theorem applyBundle_quiet_iff {crypto : Crypto} {self : DeviceIdentity} {payload : List UInt8}
    {dir : ConfigDir} :
    (∀ error later, (applyBundle manager library env crypto self now payload).run dir ≠
        .threw error later) ↔
      ∀ document, library.parse payload = .ok document →
        ConfigKinds document ∧
        ((∀ progress, env .readMaxSeq ≠ .crash progress) → ∀ bundle,
          manager.accept crypto now (seqRead (env .readMaxSeq) (ConfigManager.maxSeq dir))
            document = .ok bundle → LandingKinds manager library env self dir bundle) := by
  rw [applyBundle]
  cases parsed : library.parse payload with
  | error what => exact iff_of_true (fun _ _ impossible => nomatch impossible) (by simp)
  | ok document =>
      have authorizes : ∀ maxSeq draft, (manager.authorize crypto maxSeq draft).Contained := by
        intro maxSeq draft
        refine contained_of_within ((within_checkSeq maxSeq draft.scalars).bind fun _ => ?_)
        exact (within_authenticate crypto manager.pubkeyB64 "config" _ _).bind fun _ =>
          within_ok _
      simp only [Except.ok.injEq, forall_eq']
      refine Iff.trans (quiet_handle ?_ ?_) ?_
      · exact fun err => ⟨.rejected err, rfl⟩
      · exact fun _ => rfl
      rw [applyChecked, loadMaxSeq, quiet_admitThen, contained_readConfigDraft]
      refine and_congr_right fun _ => imp_congr_right fun _ => ?_
      simp only [authorizes, true_and, quiet_conclude, accept, bind_eq_ok]
      constructor
      · rintro each bundle ⟨draft, read, authorized⟩
        exact each draft read bundle authorized
      · exact fun each draft read bundle authorized => each bundle ⟨draft, read, authorized⟩

end Landing

end ConfigManager

/-! The responses of the cloud and its negative acknowledgements. -/

section Responses

variable {α : Type} {value : Value} {key : String}

theorem reads_valueOr {default : α} {get : Value → Except Json.Error α} :
    (∃ found, value.valueOr key default get = .ok found) ↔
      value.isObject = true ∧
        ∀ entry, value.member? key = some entry → ∃ found, get entry = .ok found := by
  cases value with
  | object members =>
      rw [Value.valueOr]
      simp only [Value.isObject, Value.member?, true_and]
      cases found : Json.lookup key members with
      | none => simp
      | some entry => simp
  | null => simp [Value.valueOr, Value.isObject]
  | boolean flag => simp [Value.valueOr, Value.isObject]
  | unsigned number => simp [Value.valueOr, Value.isObject]
  | integer number => simp [Value.valueOr, Value.isObject]
  | float number => simp [Value.valueOr, Value.isObject]
  | string text => simp [Value.valueOr, Value.isObject]
  | array items => simp [Value.valueOr, Value.isObject]

theorem reads_at {entry : Value} :
    value.at key = .ok entry ↔ value.member? key = some entry := by
  cases value with
  | object members =>
      rw [Value.at, Value.member?]
      cases found : Json.lookup key members with
      | none => simp
      | some other => simp
  | null => simp [Value.at, Value.member?]
  | boolean flag => simp [Value.at, Value.member?]
  | unsigned number => simp [Value.at, Value.member?]
  | integer number => simp [Value.at, Value.member?]
  | float number => simp [Value.at, Value.member?]
  | string text => simp [Value.at, Value.member?]
  | array items => simp [Value.at, Value.member?]

theorem reads_textOr {default : String} :
    (∃ text, value.valueOr key default Value.getString = .ok text) ↔
      value.isObject = true ∧ ∀ entry, value.member? key = some entry → entry.isString = true := by
  simp only [reads_valueOr, reads_getString]

theorem reads_numberOr {bits : Nat} {default : Int} :
    (∃ number, value.valueOr key default (Value.getSigned bits) = .ok number) ↔
      value.isObject = true ∧
        ∀ entry, value.member? key = some entry → entry.isArithmetic = true := by
  simp only [reads_valueOr, reads_getSigned]

/-- The kinds of the registration's parameters. -/
structure ParasKinds (paras : Value) : Prop where
  texts : ∀ key ∈ ["client_id", "token"], ∃ entry, paras.member? key = some entry ∧
    entry.isString = true
  expire : ∀ entry, paras.member? "token_expire" = some entry → entry.isArithmetic = true

/-- The kinds of a registration response, each asked for only when it is reached. -/
structure InitKinds (expectRequestId : String) (resp : Value) : Prop where
  object : resp.isObject = true
  code : ∀ rc, resp.member? "rc" = some rc → rc.isArithmetic = true
  name : ∀ rn, resp.member? "rn" = some rn → rn.isString = true
  requestId : resp.valueOr "rc" (-1) Value.getInt = .ok 0 →
    resp.valueOr "rn" "" Value.getString = .ok "register_response" →
    ∀ id, resp.member? "request_id" = some id → id.isString = true
  paras : resp.valueOr "rc" (-1) Value.getInt = .ok 0 →
    resp.valueOr "rn" "" Value.getString = .ok "register_response" →
    resp.valueOr "request_id" "" Value.getString = .ok expectRequestId →
    ∃ paras, resp.member? "paras" = some paras ∧ ParasKinds paras

theorem reads_textAt {paras : Value} :
    (∃ text, textAt paras key = .ok text) ↔
      ∃ entry, paras.member? key = some entry ∧ entry.isString = true := by
  simp only [textAt, bind_eq_ok, reads_at, ← reads_getString]
  exact ⟨fun ⟨text, entry, found, read⟩ => ⟨entry, found, text, read⟩,
    fun ⟨entry, found, text, read⟩ => ⟨text, entry, found, read⟩⟩

/-- The parameters, written one after another. -/
theorem reads_paras {paras : Value} {out : Credentials} :
    (∃ named signed written, writeClientId paras out = .ok named ∧
      writeToken paras named = .ok signed ∧ writeTokenExpire paras signed = .ok written) ↔
      ParasKinds paras := by
  simp only [writeClientId, writeToken, writeTokenExpire, bind_eq_ok]
  constructor
  · rintro ⟨_, _, _, ⟨clientId, clientRead, _⟩, ⟨token, tokenRead, _⟩, expire, expireRead, _⟩
    refine ⟨?_, (reads_numberOr.1 ⟨expire, expireRead⟩).2⟩
    intro key member
    simp only [List.mem_cons, List.not_mem_nil, or_false] at member
    rcases member with rfl | rfl
    · exact reads_textAt.1 ⟨clientId, clientRead⟩
    · exact reads_textAt.1 ⟨token, tokenRead⟩
  · intro kinds
    obtain ⟨clientId, clientRead⟩ := reads_textAt.2 (kinds.texts "client_id" (by simp))
    obtain ⟨token, tokenRead⟩ := reads_textAt.2 (kinds.texts "token" (by simp))
    have object : paras.isObject = true := by
      obtain ⟨entry, found, _⟩ := kinds.texts "client_id" (by simp)
      cases paras <;> simp [Value.member?, Value.isObject] at found ⊢
    obtain ⟨expire, expireRead⟩ := reads_numberOr.2 ⟨object, kinds.expire⟩
    exact ⟨_, _, _, ⟨clientId, clientRead, rfl⟩, ⟨token, tokenRead, rfl⟩, expire, expireRead, rfl⟩

section Init

variable {expectRequestId : String} {resp : Value}

theorem initResponseParas_eq_ok {paras : Value} :
    initResponseParas expectRequestId resp = .ok paras ↔
      resp.valueOr "rc" (-1) Value.getInt = .ok 0 ∧
      resp.valueOr "rn" "" Value.getString = .ok "register_response" ∧
      resp.valueOr "request_id" "" Value.getString = .ok expectRequestId ∧
      resp.member? "paras" = some paras := by
  rw [initResponseParas, bind_eq_ok]
  simp only [unguarded_eq_ok]
  constructor
  · rintro ⟨rc, code, rest⟩
    split at rest
    next failed =>
      obtain ⟨_, _, impossible⟩ := bind_eq_ok.1 rest
      cases impossible
    next accepted =>
      obtain rfl := not_not.mp accepted
      simp only [bind_eq_ok, unguarded_eq_ok, reads_at] at rest
      obtain ⟨rn, name, ⟨rfl⟩, _, id, requestId, ⟨rfl⟩, _, found⟩ := rest
      exact ⟨code, name, requestId, found⟩
  · rintro ⟨code, name, requestId, found⟩
    refine ⟨0, code, ?_⟩
    simp only [ne_eq, not_true_eq_false, if_false, bind_eq_ok, unguarded_eq_ok, reads_at]
    exact ⟨_, name, ⟨rfl⟩, require_of rfl, _, requestId, ⟨rfl⟩, require_of rfl, found⟩

theorem contained_initResponseParas :
    (initResponseParas expectRequestId resp).Contained ↔
      resp.isObject = true ∧
      (∀ rc, resp.member? "rc" = some rc → rc.isArithmetic = true) ∧
      (∀ rn, resp.member? "rn" = some rn → rn.isString = true) ∧
      (resp.valueOr "rc" (-1) Value.getInt = .ok 0 →
        resp.valueOr "rn" "" Value.getString = .ok "register_response" →
        (∀ id, resp.member? "request_id" = some id → id.isString = true) ∧
        (resp.valueOr "request_id" "" Value.getString = .ok expectRequestId →
          ∃ paras, resp.member? "paras" = some paras)) := by
  rw [initResponseParas, contained_bind, contained_unguarded]
  constructor
  · rintro ⟨code, rest⟩
    obtain ⟨object, rcKind⟩ := reads_numberOr.1 code
    obtain ⟨rc, read⟩ := code
    have later := rest rc (unguarded_eq_ok.2 read)
    refine ⟨object, rcKind, ?_, fun zero name => ?_⟩
    · split at later
      next failed =>
        rw [contained_bind, contained_unguarded] at later
        exact (reads_textOr.1 later.1).2
      next accepted =>
        rw [contained_bind, contained_unguarded] at later
        exact (reads_textOr.1 later.1).2
    · rw [read] at zero
      cases zero
      simp only [ne_eq, not_true_eq_false, if_false, contained_bind, contained_unguarded,
        contained_require, true_and, unguarded_eq_ok, reads_at] at later
      have answered := later.2 "register_response" name ⟨rfl⟩ (require_of rfl)
      exact ⟨(reads_textOr.1 answered.1).2,
        fun id => answered.2 expectRequestId id ⟨rfl⟩ (require_of rfl)⟩
  · rintro ⟨object, rcKind, rnKind, later⟩
    obtain ⟨rc, read⟩ := reads_numberOr.2 ⟨object, rcKind⟩
    refine ⟨⟨rc, read⟩, fun code same => ?_⟩
    have codeRead := unguarded_eq_ok.1 same
    split
    next failed =>
      rw [contained_bind, contained_unguarded]
      exact ⟨reads_textOr.2 ⟨object, rnKind⟩, fun _ _ => contained_reject _⟩
    next accepted =>
      obtain rfl := not_not.mp accepted
      simp only [contained_bind, contained_unguarded, contained_require, true_and,
        unguarded_eq_ok, reads_at]
      refine ⟨reads_textOr.2 ⟨object, rnKind⟩, fun rn name registered _ => ?_⟩
      rw [registered.down] at name
      obtain ⟨idKind, found⟩ := later codeRead name
      refine ⟨reads_textOr.2 ⟨object, idKind⟩, fun id requestId matched _ => ?_⟩
      rw [matched.down] at requestId
      exact found requestId

theorem initKinds_iff :
    InitKinds expectRequestId resp ↔ (initResponseParas expectRequestId resp).Contained ∧
      ∀ paras, initResponseParas expectRequestId resp = .ok paras → ParasKinds paras := by
  simp only [contained_initResponseParas, initResponseParas_eq_ok]
  constructor
  · intro kinds
    refine ⟨⟨kinds.object, kinds.code, kinds.name, fun code name => ⟨kinds.requestId code name,
      fun id => ?_⟩⟩, ?_⟩
    · obtain ⟨paras, found, _⟩ := kinds.paras code name id
      exact ⟨paras, found⟩
    · rintro paras ⟨code, name, id, found⟩
      obtain ⟨other, same, parasKinds⟩ := kinds.paras code name id
      rw [found] at same
      cases same
      exact parasKinds
  · rintro ⟨⟨object, code, name, later⟩, parasKinds⟩
    refine ⟨object, code, name, fun zero named => (later zero named).1, fun zero named id => ?_⟩
    obtain ⟨paras, found⟩ := (later zero named).2 id
    exact ⟨paras, found, parasKinds paras ⟨zero, named, id, found⟩⟩

/-- `parseInitResponse` returns if and only if the fields it reaches have their kinds. -/
theorem parseInitResponse_returns_iff {parse : List UInt8 → Except (List UInt8) Value}
    {payload : List UInt8} {out : Credentials} :
    (∃ result, parseInitResponse parse payload expectRequestId out = .ok result) ↔
      ∀ resp, parse payload = .ok resp → InitKinds expectRequestId resp := by
  rw [parseInitResponse]
  cases parsed : parse payload with
  | error what => simp
  | ok resp =>
      simp only [Except.ok.injEq, forall_eq', initKinds_iff]
      cases read : initResponseParas expectRequestId resp with
      | error stop =>
          cases stop with
          | rejected err => simp [Checked.Contained]
          | threw error => simp [Checked.Contained]
      | ok paras =>
          simp only [contained_ok, Except.ok.injEq, forall_eq', true_and, bind_eq_ok]
          rw [← reads_paras]
          constructor
          · rintro ⟨_, named, namedRead, signed, signedRead, written, writtenRead, _⟩
            exact ⟨named, signed, written, namedRead, signedRead, writtenRead⟩
          · rintro ⟨named, signed, written, namedRead, signedRead, writtenRead⟩
            by_cases complete : written.complete
            · exact ⟨_, named, namedRead, signed, signedRead, written, writtenRead, if_pos complete⟩
            · exact ⟨_, named, namedRead, signed, signedRead, written, writtenRead, if_neg complete⟩

end Init

section Certificate

variable {expectRequestId : String} {resp : Value}

/-- The kinds of a certificate response, each asked for only when it is reached. -/
structure CertKinds (expectRequestId : String) (resp : Value) : Prop where
  object : resp.isObject = true
  requestId : ∀ id, resp.member? "request_id" = some id → id.isString = true
  code : resp.valueOr "request_id" "" Value.getString = .ok expectRequestId →
    ∀ rc, resp.member? "rc" = some rc → rc.isArithmetic = true
  certPem : resp.valueOr "request_id" "" Value.getString = .ok expectRequestId →
    resp.valueOr "rc" (-1) Value.getInt = .ok 0 →
    ∃ paras pem, resp.member? "paras" = some paras ∧ paras.member? "cert_pem" = some pem ∧
      pem.isString = true

theorem contained_readCertResponse :
    (CertManager.readCertResponse expectRequestId resp).Contained ↔
      CertKinds expectRequestId resp := by
  rw [CertManager.readCertResponse]
  simp only [contained_bind, contained_unguarded, contained_require, contained_pure, true_and,
    unguarded_eq_ok, reads_at, implies_true, and_true]
  constructor
  · rintro ⟨id, later⟩
    obtain ⟨object, idKind⟩ := reads_textOr.1 id
    refine ⟨object, idKind, fun matched => ?_, fun matched zero => ?_⟩
    · exact (reads_numberOr.1 (later expectRequestId matched ⟨rfl⟩ (require_of rfl)).1).2
    · obtain ⟨⟨paras, found⟩, behind⟩ :=
        (later expectRequestId matched ⟨rfl⟩ (require_of rfl)).2 0 zero ⟨rfl⟩ (require_of rfl)
      obtain ⟨⟨pem, pemFound⟩, pemKind⟩ := behind paras found
      exact ⟨paras, pem, found, pemFound, reads_getString.1 (pemKind pem pemFound)⟩
  · intro kinds
    refine ⟨reads_textOr.2 ⟨kinds.object, kinds.requestId⟩, fun id matched same _ => ?_⟩
    rw [same.down] at matched
    refine ⟨reads_numberOr.2 ⟨kinds.object, kinds.code matched⟩, fun rc code zero _ => ?_⟩
    rw [zero.down] at code
    obtain ⟨paras, pem, found, pemFound, pemKind⟩ := kinds.certPem matched code
    refine ⟨⟨paras, found⟩, fun other otherFound => ?_⟩
    rw [found] at otherFound
    cases otherFound
    refine ⟨⟨pem, pemFound⟩, fun other otherFound => ?_⟩
    rw [pemFound] at otherFound
    cases otherFound
    exact reads_getString.2 pemKind

/-- No exception leaves `applyResponse` if and only if the fields it reaches have their kinds. -/
theorem applyResponse_quiet_iff {manager : CertManager} {library : CertLibrary}
    {env : CertStep → Fault} {payload : List UInt8} {files : CertFiles} :
    (∀ error later, (manager.applyResponse library env payload expectRequestId).run files ≠
        .threw error later) ↔
      ∀ resp, library.parse payload = .ok resp → CertKinds expectRequestId resp := by
  rw [CertManager.applyResponse]
  cases parsed : library.parse payload with
  | error what => exact iff_of_true (fun _ _ impossible => nomatch impossible) (by simp)
  | ok resp =>
      simp only [Except.ok.injEq, forall_eq']
      refine Iff.trans (quiet_handle ?_ ?_) ?_
      · exact fun err => ⟨.refused err, rfl⟩
      · exact fun _ => rfl
      rw [quiet_ofExcept_bind, contained_readCertResponse, and_iff_left_iff_imp]
      intro _ certPem _
      refine quiet_of_ends (?_ : Stops Contained _)
      refine Program.Ends.bind ?_ fun _ => Program.Ends.pure trivial
      exact Program.Ends.step.bind fun _ => Program.Ends.step.bind fun _ =>
        (ends_ofExcept (within_require _ _)).bind fun _ => Program.Ends.step.bind fun _ =>
        (ends_ofExcept (within_require _ _)).bind fun _ => Program.Ends.pure trivial

end Certificate

section Nack

variable {library : SnapshotLibrary} {nowMs : Int}

/-- The kinds of a negative acknowledgement. -/
structure NackKinds (nack : Value) : Prop where
  object : nack.isObject = true
  transferId : ∀ id, nack.member? "transfer_id" = some id → id.isString = true

theorem nackTransfer_contained {nack : Value} {transfer : String} {result : NackResult}
    (ends : (nackTransfer nowMs nack transfer).MayEnd result) (error : Json.Error) :
    result ≠ .threw error := by
  simp only [nackTransfer, Thread.mayEnd_bind] at ends
  obtain ⟨_, _, moved, _, ends⟩ := ends
  cases moved with
  | some err =>
      rw [← Thread.mayEnd_pure.1 ends]
      rintro ⟨⟩
  | none =>
      obtain ⟨present, _, ends⟩ := Thread.mayEnd_bind.1 ends
      cases present with
      | false =>
          rw [← Thread.mayEnd_pure.1 ends]
          rintro ⟨⟩
      | true =>
          obtain ⟨file, _, ends⟩ := Thread.mayEnd_bind.1 ends
          cases file with
          | missing =>
              rw [← Thread.mayEnd_pure.1 ends]
              rintro ⟨⟩
          | torn =>
              rw [← Thread.mayEnd_pure.1 ends]
              rintro ⟨⟩
          | whole record =>
              cases checked : nackMeta nowMs nack record with
              | error err =>
                  simp only [checked] at ends
                  rw [← Thread.mayEnd_pure.1 ends]
                  rintro ⟨⟩
              | ok missing =>
                  simp only [checked] at ends
                  obtain ⟨saved, _, ends⟩ := Thread.mayEnd_bind.1 ends
                  cases saved with
                  | some err =>
                      rw [← Thread.mayEnd_pure.1 ends]
                      rintro ⟨⟩
                  | none =>
                      rw [← Thread.mayEnd_pure.1 ends]
                      rintro ⟨⟩

theorem onNack_returns_iff {payload : List UInt8} :
    (∀ error, ¬ (onNack library nowMs payload).MayEnd (.threw error)) ↔
      ∀ nack, library.parse payload = .ok nack → NackKinds nack := by
  rw [onNack]
  cases parsed : library.parse payload with
  | error what => simp
  | ok nack =>
      simp only [Except.ok.injEq, forall_eq']
      have kinds : NackKinds nack ↔
          ∃ transfer, nack.valueOr "transfer_id" "" Value.getString = .ok transfer := by
        rw [reads_textOr]
        exact ⟨fun kinds => ⟨kinds.object, kinds.transferId⟩, fun kinds => ⟨kinds.1, kinds.2⟩⟩
      rw [kinds]
      cases read : nack.valueOr "transfer_id" "" Value.getString with
      | error error => simp
      | ok transfer =>
          refine iff_of_true (fun error ends => ?_) ⟨transfer, rfl⟩
          by_cases unnamed : transfer = ""
          · simp only [if_pos unnamed] at ends
            cases Thread.mayEnd_pure.1 ends
          · simp only [if_neg unnamed] at ends
            exact nackTransfer_contained ends error rfl

end Nack

end Responses

/-- A rule bundle with a number as its message type, in short pieces. -/
def numberedText : List UInt8 :=
  ["\x7b\"msg_type\":1,\"manufacturer\":0,", "\"seq\":0,\"version\":0,\"rollback\":0,",
    "\"target\":0,\"upgrade_type\":0,", "\"issued_at\":0,\"expires_at\":0,",
    "\"sig_alg\":0,\"pubkey_id\":0,", "\"signature\":0\x7d"].flatMap utf8

/-- The project's parser for documents without fractions. -/
def parseSample (text : List UInt8) : Except (List UInt8) Value :=
  match parseBytes envelopeLibrarySample text with
  | some document => .ok document
  | none => .error []

private def numbersItsType : Except (List UInt8) Value → Bool
  | .ok document => ruleFields.all (document.contains ·) && !(document.field "msg_type").isString
  | .error _ => false

end Idsm.Managerd
