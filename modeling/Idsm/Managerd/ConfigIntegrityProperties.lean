import Idsm.Json.DumpProperties
import Idsm.Managerd.ConfigLandingProperties

/-! What a signature over a configuration bundle authorizes. The canonical text sorts
the items while the landing walks them in their order, so of several items with one
name the order decides, and the text does not tell it. -/

set_option autoImplicit false

namespace Idsm.Managerd

open Idsm.Foundation
open Idsm.Json (Value)
open ConfigManager

/-! The item lines. -/

/-- The file an item of this name lands in. -/
def fileOf (configType : Int) (name : String) : String :=
  if configType = 1 then name ++ ".list" else "rule_enable.json"

/-- What admission checked on an item, as far as the landing depends on it. -/
structure ConfigItem.Valid (configType : Int) (item : ConfigItem) : Prop where
  name : isAsciiPrintable item.name = true
  version : isAsciiPrintable item.itemVersion = true
  named : (configType = 1 ∧ item.name ∈ listNames) ∨ (configType ≠ 1 ∧ item.name = "rule_enable")
  file : itemFile item = fileOf configType item.name

theorem ConfigItem.ReadFrom.valid {configType : Int} {it : Value} {item : ConfigItem}
    (read : item.ReadFrom configType it) : item.Valid configType := by
  have content := read.content
  refine ⟨read.printableName, read.printableVersion, ?_, ?_⟩
  · generalize it.field "config_value" = value at content
    generalize item.content = read at content
    cases content with
    | list type named _ => exact .inl ⟨type, by simpa [validListName] using named⟩
    | enable type named _ _ => exact .inr ⟨type, named⟩
  · generalize it.field "config_value" = value at content
    rw [itemFile]
    generalize item.content = read at content
    cases content with
    | list type _ _ => simp only [fileOf, type, if_true]
    | enable type _ _ _ => simp only [fileOf, if_neg type]

theorem ConfigItem.Valid.colonless {configType : Int} {item : ConfigItem}
    (valid : item.Valid configType) : ':' ∉ item.name.toList := by
  have lists : ∀ name ∈ listNames, ':' ∉ name.toList := by decide
  rcases valid.named with ⟨_, listed⟩ | ⟨_, named⟩
  · exact lists _ listed
  · rw [named]
    decide

theorem ConfigItem.name_of_canonicalLine {configType configType' : Int} {item item' : ConfigItem}
    (valid : item.Valid configType) (valid' : item'.Valid configType')
    (same : item.canonicalLine = item'.canonicalLine) : item.name = item'.name := by
  have texts := congrArg String.toList same
  rw [canonicalLine, canonicalLine, toList_itemLine, toList_itemLine,
    List.append_cancel_left_eq] at texts
  rcases first_mark valid.colonless texts with ⟨names, _⟩ | ⟨between, later, _⟩
  · exact String.toList_inj.mp names
  · exact absurd (later ▸ by simp) valid'.colonless

theorem ConfigDraft.ReadFrom.valid {now : Int} {document : Value} {draft : ConfigDraft}
    (read : draft.ReadFrom now document) :
    ∀ item ∈ draft.items, item.Valid draft.scalars.bundleType := by
  obtain ⟨values, _, items⟩ := read.items
  intro item member
  obtain ⟨index, bound, rfl⟩ := List.getElem_of_mem member
  have pair := items.get (by rw [items.length_eq]; exact bound) bound
  exact pair.valid

namespace ConfigBundle

/-- What admission checked on the items. -/
def Valid (bundle : ConfigBundle) : Prop :=
  ∀ item ∈ bundle.items, item.Valid bundle.header.bundleType

theorem valid_of_accept {manager : ConfigManager} {crypto : Crypto} {now maxSeq : Int}
    {document : Value} {bundle : ConfigBundle}
    (accepted : manager.accept crypto now maxSeq document = .ok bundle) : bundle.Valid := by
  obtain ⟨draft, read, drawn⟩ := ConfigManager.accept_eq_ok.1 accepted
  intro item member
  rw [drawn.header]
  rw [drawn.items] at member
  exact read.valid item member

theorem itemLines_payload {bundle : ConfigBundle} (valid : bundle.Valid) :
    PayloadLines 'c' (itemLines bundle.items) := by
  have pairs : itemLines bundle.items = sortLines ((bundle.items.map fun item =>
      (item.name, item.canonJson)).map fun pair => itemLine pair.1 pair.2) := by
    rw [List.map_map]
    rfl
  rw [pairs]
  refine sortedItemLines_payload fun pair member => ?_
  obtain ⟨item, kept, rfl⟩ := List.mem_map.mp member
  exact (valid item kept).name

/-- Bundles with one canonical text have one number, one type and one set of names. -/
theorem parts_of_canonical {bundle bundle' : ConfigBundle} (valid : bundle.Valid)
    (valid' : bundle'.Valid) (same : bundle.canonical = bundle'.canonical) :
    bundle.header.seq = bundle'.header.seq ∧
      bundle.header.bundleType = bundle'.header.bundleType ∧
      ∀ name, (∃ item ∈ bundle.items, item.name = name) ↔ ∃ item ∈ bundle'.items, item.name = name := by
  obtain ⟨⟨seqs, _, _, types, lines⟩, _⟩ :=
    canonicalBytes_parts (markOf "config_type=" (by decide)) 'c' "onfig_type=".toList (by decide)
      (by decide) (by decide) (itemLines_payload valid) (itemLines_payload valid') same
  refine ⟨seqs, types, ?_⟩
  have covered : ∀ first second : ConfigBundle, first.Valid → second.Valid →
      itemLines first.items = itemLines second.items → ∀ item ∈ first.items,
      ∃ item' ∈ second.items, item'.name = item.name := by
    intro first second firstValid secondValid equal item member
    have line : item.canonicalLine ∈ itemLines second.items := by
      rw [← equal, itemLines, (sortLines_perm _).mem_iff]
      exact List.mem_map_of_mem member
    rw [itemLines, (sortLines_perm _).mem_iff] at line
    obtain ⟨item', member', equal'⟩ := List.mem_map.mp line
    exact ⟨item', member', ConfigItem.name_of_canonicalLine (secondValid item' member')
      (firstValid item member) equal'⟩
  intro name
  constructor
  · rintro ⟨item, member, rfl⟩
    exact covered bundle bundle' valid valid' lines item member
  · rintro ⟨item, member, rfl⟩
    exact covered bundle' bundle valid' valid lines.symm item member

end ConfigBundle

namespace ConfigManager

/-! The landing without faults that matter. -/

/-- The versions object after the items, as the landing fills it in. -/
def recorded : List ConfigItem → Value → Except Json.Error Value
  | [], versions => .ok versions
  | item :: rest, versions => do
      let later ← versions.assign item.name (.string item.itemVersion)
      recorded rest later

/-- The files after the items, one after another. -/
def landFiles (files : OrderedMap String (List UInt8)) :
    List ConfigItem → OrderedMap String (List UInt8)
  | [] => files
  | item :: rest => landFiles (placed files (itemFile item) (itemBody item)) rest

/-- The versions object a landing starts from. -/
def installedVersions (library : ConfigLibrary) (env : ConfigStep → Fault) (dir : ConfigDir) :
    Value :=
  match env .readVersions with
  | .none => versionsOf library (dir.file? versionsFile)
  | _ => .object []

section Landing

variable {manager : ConfigManager} {library : ConfigLibrary} {env : ConfigStep → Fault}
  {start : ConfigDir} {now : Int} {bundle : ConfigBundle}

/-- The files under `current`, if it exists. -/
def Holds (files : OrderedMap String (List UInt8)) (dir : ConfigDir) : Prop :=
  ∀ found, dir.current = some found → found = files

private theorem landItems_spec (items : List (ConfigItem × Nat)) {versions : Value}
    {files : OrderedMap String (List UInt8)} :
    Program.Triple (Holds files) (landItems manager library env now bundle items versions)
      (fun versions' dir => recorded (items.map Prod.fst) versions = .ok versions' ∧
        Holds (landFiles files (items.map Prod.fst)) dir)
      (fun _ _ => True) (fun _ => True) := by
  induction items generalizing versions files with
  | nil => exact Program.Triple.pure fun _ held => ⟨rfl, held⟩
  | cons entry rest ih =>
      obtain ⟨item, index⟩ := entry
      refine Program.Triple.bind
        (fun _ => Holds (placed files (itemFile item) (itemBody item))) ?_ fun _ => ?_
      · refine Program.Triple.pointwise fun dir held => atomicWrite_spec.weaken
          (fun _ given => given) ?_ (fun _ _ _ => trivial) (fun _ _ => trivial)
        rintro _ later ⟨found, present, rfl⟩ now' same
        rw [← held found present]
        exact (Option.some.inj same).symm
      refine Program.Triple.bind
        (fun versions' dir => versions.assign item.name (.string item.itemVersion) = .ok versions' ∧
          Holds (placed files (itemFile item) (itemBody item)) dir)
        (Program.Triple.ofExcept ?_ fun _ _ _ _ => trivial) fun versions' => ?_
      · exact fun versions' assigned dir held => ⟨unguarded_eq_ok.1 assigned, held⟩
      refine Program.Triple.pointwise fun dir ⟨assigned, held⟩ => ?_
      refine Program.Triple.bind (fun _ => Holds (placed files (itemFile item) (itemBody item)))
        (Program.Triple.step ?_ ?_ fun _ _ _ _ => trivial) fun _ => ?_
      · rintro _ _ rfl
        exact held
      · rintro _ _ _ rfl
        exact held
      · refine ih.weaken (fun _ given => given) ?_ (fun _ _ _ => trivial) (fun _ _ => trivial)
        rintro versions'' later ⟨recording, kept⟩
        refine ⟨?_, kept⟩
        simp only [List.map_cons, recorded, assigned, bind, Except.bind]
        exact recording

/-- What an accepted bundle leaves. -/
structure Effect (library : ConfigLibrary) (env : ConfigStep → Fault) (device : DeviceIdentity)
    (start : ConfigDir) (bundle : ConfigBundle) (dir : ConfigDir) : Prop where
  maxSeq : dir.maxSeqFile = some (seqText bundle.header.seq)
  skipped : bundle.header.target.hits device = false → dir.current = start.current
  landed : bundle.header.target.hits device = true → ∃ versions,
    recorded bundle.items (installedVersions library env start) = .ok versions ∧
    dir.current = some (placed (landFiles (start.current.getD .empty) bundle.items) versionsFile
      (versionsText library versions))

private theorem land_spec :
    Program.Triple (· = start) (land manager library env now bundle)
      (fun _ dir => dir.maxSeqFile = some (seqText bundle.header.seq) ∧ ∃ versions,
        recorded bundle.items (installedVersions library env start) = .ok versions ∧
        dir.current = some (placed (landFiles (start.current.getD .empty) bundle.items) versionsFile
          (versionsText library versions)))
      (fun _ _ => True) (fun _ => True) := by
  have begun : ∀ dir : ConfigDir, dir.current = start.current ∨
      dir.current = start.current.or (some .empty) → Holds (start.current.getD .empty) dir := by
    rintro dir same found present
    rcases same with same | same
    · rw [same] at present
      rw [present, Option.getD_some]
    · rw [same] at present
      cases existing : start.current with
      | none => simpa [existing, eq_comm] using present
      | some files => simpa [existing, eq_comm] using present
  have seen : ∀ dir : ConfigDir, dir.current = start.current ∨
      dir.current = start.current.or (some .empty) →
      dir.file? versionsFile = start.file? versionsFile := by
    intro dir same
    rw [ConfigDir.file?, ConfigDir.file?]
    rcases same with same | same
    · rw [same]
    · rw [same]
      cases start.current <;> rfl
  refine Program.Triple.bind (fun _ dir => dir.current = start.current ∨
      dir.current = start.current.or (some .empty))
    (Program.Triple.step ?_ ?_ fun _ _ _ _ => trivial) fun _ => ?_
  · rintro _ dir rfl
    exact .inr rfl
  · rintro _ _ dir rfl
    exact .inl rfl
  refine Program.Triple.bind (fun versions dir => versions = installedVersions library env start ∧
      Holds (start.current.getD .empty) dir)
    (Program.Triple.step ?_ ?_ fun _ _ _ _ => trivial) fun installed => ?_
  · intro clean dir same
    exact ⟨by rw [installedVersions, clean, seen dir same], begun dir same⟩
  · intro progress failed dir same
    exact ⟨by rw [installedVersions, failed], begun dir same⟩
  refine Program.Triple.pointwise fun dir given => ?_
  obtain ⟨same, held⟩ := given
  subst same
  refine Program.Triple.bind (fun versions dir =>
      recorded bundle.items (installedVersions library env start) = .ok versions ∧
        Holds (landFiles (start.current.getD .empty) bundle.items) dir)
    ((landItems_spec bundle.items.zipIdx).weaken (fun _ given => given ▸ held) ?_
      (fun _ _ given => given) (fun _ given => given)) fun versions => ?_
  · intro versions later given
    rwa [List.zipIdx_map_fst] at given
  refine Program.Triple.pointwise fun later given => ?_
  obtain ⟨recording, landed⟩ := given
  refine Program.Triple.bind (fun _ dir => dir.current =
      some (placed (landFiles (start.current.getD .empty) bundle.items) versionsFile
        (versionsText library versions)))
    (atomicWrite_spec.weaken (fun _ given => given) ?_ (fun _ _ _ => trivial)
      (fun _ _ => trivial)) fun _ => ?_
  · rintro _ dir ⟨found, present, rfl⟩
    rw [landed found present]
  refine Program.Triple.pointwise fun last written => ?_
  refine Program.Triple.bind (fun _ dir => dir.current = last.current ∧
      dir.maxSeqFile = some (seqText bundle.header.seq))
    (storeMaxSeq_spec.weaken (fun _ given => given) (fun _ _ given => given)
      (fun _ _ _ => trivial) (fun _ _ => trivial)) fun _ => ?_
  refine Program.Triple.bind (fun _ dir => dir.current = last.current ∧
      dir.maxSeqFile = some (seqText bundle.header.seq)) ?_ fun _ => ?_
  · rw [runReload]
    split
    · exact Program.Triple.pure fun _ given => given
    · refine Program.Triple.bind (fun _ dir => dir.current = last.current ∧
          dir.maxSeqFile = some (seqText bundle.header.seq))
        (Program.Triple.step (fun _ _ given => given) (fun _ _ _ given => given)
          fun _ _ _ _ => trivial) fun _ => ?_
      exact Program.Triple.bind _ (require_triple fun _ _ _ => trivial) fun _ =>
        Program.Triple.pure fun _ given => given.2
  · exact Program.Triple.pure fun _ given =>
      ⟨given.2, versions, recording, given.1.trans written⟩

theorem effect_of_run {crypto : Crypto} {self : DeviceIdentity} {jsonText : List UInt8}
    {document : Value} {result : ConfigApply} {later : ConfigDir}
    (parsed : library.parse jsonText = .ok document)
    (accepted : manager.accept crypto now (readSeq env start) document = .ok bundle)
    (ended : (applyBundle manager library env crypto self now jsonText).run start =
      .returned result later) (admitted : ∀ err, result ≠ .rejected err) :
    Effect library env self start bundle later := by
  have kept : Program.Triple (· = start)
      (applyChecked manager library env crypto self now document)
      (fun _ dir => Effect library env self start bundle dir) (fun _ _ => True)
      (fun _ => True) := by
    refine applyChecked_triple (fun _ => trivial) trivial fun other accepted' => ?_
    rw [accepted, Except.ok.injEq] at accepted'
    subst accepted'
    rw [conclude]
    split
    next hit =>
      exact land_spec.weaken (fun _ given => given)
        (fun _ dir given => ⟨given.1, fun missed => absurd hit (by simp [missed]), fun _ => given.2⟩)
        (fun _ _ given => given) (fun _ given => given)
    next missed =>
      refine Program.Triple.bind (fun _ dir => dir.current = start.current ∧
          dir.maxSeqFile = some (seqText bundle.header.seq))
        (storeMaxSeq_spec.weaken (fun _ given => given) (fun _ _ given => given)
          (fun _ _ _ => trivial) (fun _ _ => trivial)) fun _ => ?_
      exact Program.Triple.pure fun dir given =>
        ⟨given.2, fun _ => given.1, fun hit => absurd hit missed⟩
  have reached := kept start rfl
  rw [applyBundle, parsed, Program.run_handle] at ended
  cases checked : (applyChecked manager library env crypto self now document).run start with
  | returned value last =>
      rw [checked] at reached ended
      cases ended
      exact reached
  | crashed last =>
      rw [checked] at ended
      cases ended
  | threw stop last =>
      rw [checked] at ended
      cases stop with
      | threw error => cases ended
      | rejected err =>
          cases ended
          exact absurd rfl (admitted err)

end Landing

/-! The landed files by name. -/

/-- Of several items with one name the last one counts. -/
def itemsByName (items : List ConfigItem) : OrderedMap String ConfigItem :=
  .ofList (items.map fun item => (item.name, item))

/-- The text each file last got. -/
def bodiesByFile (items : List ConfigItem) : OrderedMap String (List UInt8) :=
  .ofList (items.map fun item => (itemFile item, itemBody item))

private theorem getLast?_itemFile (item : ConfigItem) :
    (itemFile item).toList.getLast? = some 't' ∨ (itemFile item).toList.getLast? = some 'n' := by
  rw [itemFile]
  split
  · have word : ".list".toList = ['.', 'l', 'i', 's', 't'] := by decide
    exact .inl (by simp [String.toList_append, word])
  · exact .inr (by decide)

theorem tmp_ne_itemFile (file : String) (item : ConfigItem) : file ++ ".tmp" ≠ itemFile item := by
  intro same
  have word : ".tmp".toList = ['.', 't', 'm', 'p'] := by decide
  have last : (file ++ ".tmp").toList.getLast? = some 'p' := by
    simp [String.toList_append, word]
  rw [same] at last
  rcases getLast?_itemFile item with found | found
  · rw [found] at last
    exact absurd last (by decide)
  · rw [found] at last
    exact absurd last (by decide)

theorem find?_placed (files : OrderedMap String (List UInt8)) (file name : String)
    (content : List UInt8) :
    (placed files file content).find? name =
      if file = name then some content
      else if file ++ ".tmp" = name then none else files.find? name := by
  rw [placed, OrderedMap.find?_insert, OrderedMap.find?_erase, OrderedMap.find?_insert]
  split_ifs <;> rfl

theorem find?_bodiesByFile_cons (item : ConfigItem) (rest : List ConfigItem) (name : String) :
    (bodiesByFile (item :: rest)).find? name =
      ((bodiesByFile rest).find? name).or
        (if itemFile item = name then some (itemBody item) else none) :=
  OrderedMap.find?_ofList_cons _ _ _

theorem find?_landFiles (files : OrderedMap String (List UInt8)) (items : List ConfigItem)
    (name : String) :
    (landFiles files items).find? name =
      ((bodiesByFile items).find? name).or
        (if name ∈ items.map fun item => itemFile item ++ ".tmp" then none
          else files.find? name) := by
  induction items generalizing files with
  | nil => simp [landFiles, bodiesByFile]
  | cons item rest ih =>
      rw [landFiles, ih, find?_bodiesByFile_cons, find?_placed, List.map_cons]
      cases (bodiesByFile rest).find? name with
      | some body => simp
      | none =>
          by_cases here : itemFile item = name
          · subst here
            have fresh : itemFile item ∉ rest.map fun item => itemFile item ++ ".tmp" := by
              intro member
              obtain ⟨other, _, equal⟩ := List.mem_map.mp member
              exact tmp_ne_itemFile _ _ equal
            simp [fresh]
          · by_cases temporary : itemFile item ++ ".tmp" = name
            · simp [here, temporary]
            · simp [here, temporary, Ne.symm temporary]

section Names

variable {configType : Int} {items items' : List ConfigItem}

private theorem fileOf_injective {item item' : ConfigItem} (valid : item.Valid configType)
    (valid' : item'.Valid configType)
    (same : fileOf configType item.name = fileOf configType item'.name) : item.name = item'.name := by
  rcases valid.named with ⟨type, _⟩ | ⟨type, named⟩
  · simp only [fileOf, type, if_true] at same
    have texts := congrArg String.toList same
    rw [String.toList_append, String.toList_append, List.append_cancel_right_eq] at texts
    exact String.toList_inj.mp texts
  · rcases valid'.named with ⟨type', _⟩ | ⟨_, named'⟩
    · exact absurd type' type
    · rw [named, named']

theorem find?_bodiesByFile (valid : ∀ item ∈ items, item.Valid configType) {item : ConfigItem}
    (known : item.Valid configType) :
    (bodiesByFile items).find? (itemFile item) =
      ((itemsByName items).find? item.name).map itemBody := by
  have renamed : (items.map fun item => (itemFile item, itemBody item)) =
      (items.map fun item => (item.name, item)).map fun entry =>
        (fileOf configType entry.1, itemBody entry.2) := by
    rw [List.map_map]
    exact List.map_congr_left fun other member => by
      rw [Function.comp_apply, (valid other member).file]
  rw [bodiesByFile, itemsByName, renamed, known.file]
  refine OrderedMap.find?_ofList_map (fileOf configType) itemBody _ _ ?_
  intro entry member same
  obtain ⟨other, kept, rfl⟩ := List.mem_map.mp member
  exact fileOf_injective (valid other kept) known same

theorem find?_itemsByName_eq_none_iff {name : String} :
    (itemsByName items).find? name = none ↔ ∀ item ∈ items, item.name ≠ name := by
  simp [itemsByName, OrderedMap.find?_ofList_eq_none_iff]

theorem mem_of_itemsByName {name : String} {item : ConfigItem}
    (found : (itemsByName items).find? name = some item) : item ∈ items ∧ item.name = name := by
  have member := OrderedMap.mem_of_find?_ofList found
  simp only [List.mem_map, Prod.mk.injEq] at member
  obtain ⟨other, kept, named, rfl⟩ := member
  exact ⟨kept, named⟩

/-- What an item leaves under its name. -/
def landedPart (item : ConfigItem) : List UInt8 × String := (itemBody item, item.itemVersion)

/-- The last items of each name leave the same file and the same version. -/
def SameItems (items items' : List ConfigItem) : Prop :=
  ∀ name, ((itemsByName items).find? name).map landedPart =
    ((itemsByName items').find? name).map landedPart

private theorem bodiesByFile_congr (valid : ∀ item ∈ items, item.Valid configType)
    (valid' : ∀ item ∈ items', item.Valid configType) (same : SameItems items items') :
    bodiesByFile items = bodiesByFile items' := by
  have bodies : ∀ name, ((itemsByName items).find? name).map itemBody =
      ((itemsByName items').find? name).map itemBody := by
    intro name
    have parts := congrArg (Option.map Prod.fst) (same name)
    rw [Option.map_map, Option.map_map] at parts
    exact parts
  refine OrderedMap.ext fun file => ?_
  by_cases known : ∃ item ∈ items ++ items', itemFile item = file
  · obtain ⟨item, member, rfl⟩ := known
    have known : item.Valid configType := by
      rcases List.mem_append.mp member with member | member
      · exact valid item member
      · exact valid' item member
    rw [find?_bodiesByFile valid known, find?_bodiesByFile valid' known, bodies]
  · have missing : ∀ list : List ConfigItem, (∀ item ∈ list, item ∈ items ++ items') →
        (bodiesByFile list).find? file = none := by
      intro list within
      refine OrderedMap.find?_ofList_eq_none_iff.mpr fun entry member same => ?_
      obtain ⟨item, kept, rfl⟩ := List.mem_map.mp member
      exact known ⟨item, within item kept, same⟩
    rw [missing items fun item member => List.mem_append_left _ member,
      missing items' fun item member => List.mem_append_right _ member]

/-! The recorded versions. -/

theorem recorded_object (items : List ConfigItem) (base : List (String × Value)) :
    recorded items (.object base) =
      .ok (.object (base ++ items.map fun item => (item.name, .string item.itemVersion))) := by
  induction items generalizing base with
  | nil => simp [recorded]
  | cons item rest ih =>
      have assigned : Value.assign (.object base) item.name (.string item.itemVersion) =
          .ok (.object (base ++ [(item.name, .string item.itemVersion)])) := rfl
      simp only [recorded, assigned, bind, Except.bind, ih, List.map_cons, List.append_assoc,
        List.cons_append, List.nil_append]

/-- The members the recording starts from. -/
def baseMembers : Value → List (String × Value)
  | .object members => members
  | _ => []

theorem recorded_eq_ok {versions versions' : Value} (some : items ≠ [])
    (recording : recorded items versions = .ok versions') :
    versions' = .object (baseMembers versions ++
      items.map fun item => (item.name, .string item.itemVersion)) := by
  cases versions with
  | object base =>
      rw [recorded_object] at recording
      exact (Except.ok.inj recording).symm
  | null =>
      cases items with
      | nil => exact absurd rfl some
      | cons item rest =>
          have assigned : Value.assign .null item.name (.string item.itemVersion) =
              .ok (.object [(item.name, .string item.itemVersion)]) := rfl
          simp only [recorded, assigned, bind, Except.bind, recorded_object] at recording
          exact (Except.ok.inj recording).symm
  | boolean flag => cases items <;> simp [recorded, Value.assign, bind, Except.bind] at *
  | unsigned number => cases items <;> simp [recorded, Value.assign, bind, Except.bind] at *
  | integer number => cases items <;> simp [recorded, Value.assign, bind, Except.bind] at *
  | float number => cases items <;> simp [recorded, Value.assign, bind, Except.bind] at *
  | string text => cases items <;> simp [recorded, Value.assign, bind, Except.bind] at *
  | array values => cases items <;> simp [recorded, Value.assign, bind, Except.bind] at *

/-- The dumped members of the recorded versions. -/
def dumpedVersions (library : ConfigLibrary) (base : List (String × Value))
    (items : List ConfigItem) : OrderedMap String String :=
  .ofList (Json.dumpMembers (Json.nlohmann library.floatText (some 1)) 1
    (base ++ items.map fun item => (item.name, .string item.itemVersion)))

theorem versionsText_object (library : ConfigLibrary) (base : List (String × Value))
    (items : List ConfigItem) :
    versionsText library (.object (base ++
        items.map fun item => (item.name, .string item.itemVersion))) =
      utf8 (Json.objectText (Json.nlohmann library.floatText (some 1)) 0 (dumpedVersions library base items) ++ "\n") := by
  rw [versionsText, Json.dump, Json.dumpAt, dumpedVersions]

private theorem dumpMembers_append (library : ConfigLibrary) (first second : List (String × Value)) :
    Json.dumpMembers (Json.nlohmann library.floatText (some 1)) 1 (first ++ second) =
      Json.dumpMembers (Json.nlohmann library.floatText (some 1)) 1 first ++
        Json.dumpMembers (Json.nlohmann library.floatText (some 1)) 1 second := by
  induction first with
  | nil => simp [Json.dumpMembers]
  | cons member rest ih =>
      obtain ⟨name, value⟩ := member
      simp [Json.dumpMembers, ih]

private theorem dumpMembers_versions (library : ConfigLibrary) (items : List ConfigItem) :
    Json.dumpMembers (Json.nlohmann library.floatText (some 1)) 1
        (items.map fun item => (item.name, .string item.itemVersion)) =
      (items.map fun item => (item.name, item)).map fun entry =>
        (entry.1, Json.quote entry.2.itemVersion) := by
  induction items with
  | nil => simp [Json.dumpMembers]
  | cons item rest ih => simpa [Json.dumpMembers, Json.dumpAt, Json.nlohmann] using ih

theorem find?_dumpedVersions (library : ConfigLibrary) (base : List (String × Value))
    (items : List ConfigItem) (name : String) :
    (dumpedVersions library base items).find? name =
      (((itemsByName items).find? name).map fun item => Json.quote item.itemVersion).or
        ((OrderedMap.ofList (Json.dumpMembers (Json.nlohmann library.floatText (some 1)) 1 base)).find? name) := by
  have renamed := OrderedMap.find?_ofList_map id
    (fun item : ConfigItem => Json.quote item.itemVersion) (items.map fun item => (item.name, item))
    name (fun _ _ same => same)
  rw [dumpedVersions, dumpMembers_append, OrderedMap.find?_ofList_append, dumpMembers_versions]
  exact congrArg (Option.or · _) renamed

theorem plain_of_isAsciiPrintable {text : String} (printable : isAsciiPrintable text = true) :
    ∀ c ∈ text.toList, Json.Plain c := fun c member => (isAsciiPrintable_iff.1 printable c member).1

/-- With one set of names, a name is in both bundles or in neither. -/
private theorem matched_of_names
    (names : ∀ name, (∃ item ∈ items, item.name = name) ↔ ∃ item ∈ items', item.name = name)
    (name : String) :
    ((itemsByName items).find? name = none ∧ (itemsByName items').find? name = none) ∨
      ∃ item item', (itemsByName items).find? name = some item ∧
        (itemsByName items').find? name = some item' := by
  cases first : (itemsByName items).find? name with
  | none =>
      left
      refine ⟨rfl, find?_itemsByName_eq_none_iff.mpr fun item' member same => ?_⟩
      obtain ⟨item, kept, named⟩ := (names name).mpr ⟨item', member, same⟩
      exact find?_itemsByName_eq_none_iff.mp first item kept named
  | some item =>
      cases second : (itemsByName items').find? name with
      | none =>
          obtain ⟨kept, named⟩ := mem_of_itemsByName first
          obtain ⟨item', member, same⟩ := (names name).mp ⟨item, kept, named⟩
          exact absurd same (find?_itemsByName_eq_none_iff.mp second item' member)
      | some item' => exact .inr ⟨item, item', rfl, rfl⟩

/-- The recorded texts are equal exactly when each name has one version in both. -/
theorem versionsText_eq_iff (library : ConfigLibrary) (base : List (String × Value))
    (valid : ∀ item ∈ items, item.Valid configType)
    (valid' : ∀ item ∈ items', item.Valid configType)
    (names : ∀ name, (∃ item ∈ items, item.name = name) ↔ ∃ item ∈ items', item.name = name) :
    versionsText library (.object (base ++
        items.map fun item => (item.name, .string item.itemVersion))) =
      versionsText library (.object (base ++
        items'.map fun item => (item.name, .string item.itemVersion))) ↔
    ∀ name, ((itemsByName items).find? name).map ConfigItem.itemVersion =
      ((itemsByName items').find? name).map ConfigItem.itemVersion := by
  have plain : ∀ {name item}, (itemsByName items).find? name = some item →
      ∀ c ∈ item.itemVersion.toList, Json.Plain c := fun found =>
    plain_of_isAsciiPrintable (valid _ (mem_of_itemsByName found).1).version
  have plain' : ∀ {name item}, (itemsByName items').find? name = some item →
      ∀ c ∈ item.itemVersion.toList, Json.Plain c := fun found =>
    plain_of_isAsciiPrintable (valid' _ (mem_of_itemsByName found).1).version
  rw [versionsText_object, versionsText_object]
  constructor
  · intro same name
    have texts := congrArg String.toList (utf8_injective same)
    rw [String.toList_append, String.toList_append, List.append_cancel_right_eq] at texts
    have members := Json.objectText_cancel ?_ ?_ (String.toList_inj.mp texts)
    · have found := congrArg (OrderedMap.find? · name) members
      simp only [find?_dumpedVersions] at found
      rcases matched_of_names names name with ⟨first, second⟩ | ⟨item, item', first, second⟩
      · rw [first, second]
      · simp only [first, second, Option.map_some, Option.some_or, Option.some.injEq] at found
        have equal := Json.quote_cancel (plain first) (plain' second)
          (congrArg (fun text => String.toList text ++ []) found)
        rw [first, second, Option.map_some, Option.map_some, equal]
    · intro key
      rw [find?_dumpedVersions, find?_dumpedVersions]
      rcases matched_of_names names key with ⟨first, second⟩ | ⟨item, item', first, second⟩
      · rw [first, second]
      · rw [first, second]
        rfl
    · intro key value value' found found'
      rw [find?_dumpedVersions] at found found'
      rcases matched_of_names names key with ⟨first, second⟩ | ⟨item, item', first, second⟩
      · simp only [first, second, Option.map_none, Option.none_or] at found found'
        rw [found, Option.some.injEq] at found'
        exact found' ▸ Json.Aligned.refl value
      · simp only [first, second, Option.map_some, Option.some_or, Option.some.injEq]
          at found found'
        subst found found'
        exact Json.aligned_quote (plain first) (plain' second)
  · intro same
    have members : dumpedVersions library base items = dumpedVersions library base items' := by
      refine OrderedMap.ext fun name => ?_
      have quoted := congrArg (Option.map Json.quote) (same name)
      rw [Option.map_map, Option.map_map] at quoted
      rw [find?_dumpedVersions, find?_dumpedVersions]
      exact congrArg (Option.or · _) quoted
    rw [members]

end Names

/-! Two runs. -/

section TwoRuns

variable {library : ConfigLibrary} {env : ConfigStep → Fault} {self : DeviceIdentity}
  {start later later' : ConfigDir} {bundle bundle' : ConfigBundle}

/-- Everything the bundle would land is there already. -/
def Installed (library : ConfigLibrary) (env : ConfigStep → Fault) (dir : ConfigDir)
    (bundle : ConfigBundle) : Prop :=
  (∀ name item, (itemsByName bundle.items).find? name = some item →
    dir.file? (itemFile item) = some (itemBody item) ∧
      dir.file? (itemFile item ++ ".tmp") = none) ∧
  ∃ versions, recorded bundle.items (installedVersions library env dir) = .ok versions ∧
    dir.file? versionsFile = some (versionsText library versions) ∧
    dir.file? (versionsFile ++ ".tmp") = none

/-- The parts of two bundles that decide what their landings leave. -/
def Agree (library : ConfigLibrary) (env : ConfigStep → Fault) (self : DeviceIdentity)
    (dir : ConfigDir) (bundle bundle' : ConfigBundle) : Prop :=
  match bundle.header.target.hits self, bundle'.header.target.hits self with
  | true, true => SameItems bundle.items bundle'.items
  | true, false => Installed library env dir bundle
  | false, true => Installed library env dir bundle'
  | false, false => True

theorem Effect.file? (effect : Effect library env self start bundle later)
    (hit : bundle.header.target.hits self = true) :
    ∃ versions, recorded bundle.items (installedVersions library env start) = .ok versions ∧
      ∀ name, later.file? name =
        if versionsFile = name then some (versionsText library versions)
        else if versionsFile ++ ".tmp" = name then none
        else ((bodiesByFile bundle.items).find? name).or
          (if name ∈ bundle.items.map fun item => itemFile item ++ ".tmp" then none
            else start.file? name) := by
  obtain ⟨versions, recording, landed⟩ := effect.landed hit
  refine ⟨versions, recording, fun name => ?_⟩
  rw [ConfigDir.file?, landed, Option.bind_some, find?_placed, find?_landFiles]
  have before : (start.current.getD .empty).find? name = start.file? name := by
    rw [ConfigDir.file?]
    cases start.current <;> rfl
  rw [before]

theorem versionsFile_ne_itemFile (item : ConfigItem) : versionsFile ≠ itemFile item := by
  rw [itemFile]
  split
  · intro same
    have word : ".list".toList = ['.', 'l', 'i', 's', 't'] := by decide
    have last := congrArg (fun text => String.toList text |>.getLast?) same
    simp only [String.toList_append, word] at last
    rw [List.getLast?_append_of_ne_nil _ (by simp)] at last
    exact absurd last (by decide)
  · decide

theorem tmp_ne_versionsFile (file : String) : file ++ ".tmp" ≠ versionsFile := by
  intro same
  have word : ".tmp".toList = ['.', 't', 'm', 'p'] := by decide
  have last := congrArg (fun text => String.toList text |>.getLast?) same
  simp only [String.toList_append, word] at last
  rw [List.getLast?_append_of_ne_nil _ (by simp)] at last
  exact absurd last (by decide)

/-- The file an item leaves when it is the last of its name. -/
theorem Effect.itemFile (effect : Effect library env self start bundle later)
    (hit : bundle.header.target.hits self = true) (valid : bundle.Valid) {name : String}
    {item : ConfigItem} (last : (itemsByName bundle.items).find? name = some item) :
    later.file? (itemFile item) = some (itemBody item) ∧
      later.file? (ConfigManager.itemFile item ++ ".tmp") = none := by
  obtain ⟨versions, _, files⟩ := effect.file? hit
  obtain ⟨member, named⟩ := mem_of_itemsByName last
  constructor
  · rw [files, if_neg (versionsFile_ne_itemFile item), if_neg (tmp_ne_itemFile _ item),
      find?_bodiesByFile valid (valid item member), named, last]
    rfl
  · have apart : versionsFile ++ ".tmp" ≠ ConfigManager.itemFile item ++ ".tmp" := by
      intro same
      have texts := congrArg String.toList same
      rw [String.toList_append, String.toList_append, List.append_cancel_right_eq] at texts
      exact versionsFile_ne_itemFile item (String.toList_inj.mp texts)
    have unnamed : (bodiesByFile bundle.items).find? (ConfigManager.itemFile item ++ ".tmp") = none := by
      refine OrderedMap.find?_ofList_eq_none_iff.mpr fun entry listed same => ?_
      obtain ⟨other, _, rfl⟩ := List.mem_map.mp listed
      exact tmp_ne_itemFile _ other same.symm
    rw [files, if_neg (tmp_ne_versionsFile _).symm, if_neg apart, unnamed, Option.none_or,
      if_pos (List.mem_map.mpr ⟨item, member, rfl⟩)]

private theorem last_of_member {items : List ConfigItem} {item : ConfigItem} (member : item ∈ items) :
    ∃ last, (itemsByName items).find? item.name = some last := by
  cases found : (itemsByName items).find? item.name with
  | none => exact absurd rfl (find?_itemsByName_eq_none_iff.mp found item member)
  | some last => exact ⟨last, rfl⟩

private theorem itemFile_of_name {items : List ConfigItem} {configType : Int}
    (valid : ∀ item ∈ items, item.Valid configType) {item last : ConfigItem} (member : item ∈ items)
    (found : (itemsByName items).find? item.name = some last) : itemFile last = itemFile item := by
  obtain ⟨kept, named⟩ := mem_of_itemsByName found
  rw [(valid last kept).file, (valid item member).file, named]

/-- A landing that changes nothing found everything installed. -/
theorem Effect.unchanged_iff (effect : Effect library env self start bundle later)
    (hit : bundle.header.target.hits self = true) (valid : bundle.Valid) :
    later.file? = start.file? ↔ Installed library env start bundle := by
  obtain ⟨versions, recording, files⟩ := effect.file? hit
  constructor
  · intro same
    refine ⟨fun name item last => same ▸ effect.itemFile hit valid last, versions, recording, ?_, ?_⟩
    · rw [← same, files, if_pos rfl]
    · rw [← same, files, if_neg (tmp_ne_versionsFile _).symm, if_pos rfl]
  · rintro ⟨items, versions', recording', stored, cleared⟩
    rw [recording, Except.ok.injEq] at recording'
    subst recording'
    funext name
    rw [files]
    split_ifs with isVersions isTmp temporary
    · rw [← isVersions, stored]
    · rw [← isTmp, cleared]
    · obtain ⟨item, member, rfl⟩ := List.mem_map.mp temporary
      obtain ⟨last, found⟩ := last_of_member member
      have unnamed : (bodiesByFile bundle.items).find? (ConfigManager.itemFile item ++ ".tmp") =
          none := by
        refine OrderedMap.find?_ofList_eq_none_iff.mpr fun entry listed same => ?_
        obtain ⟨other, _, rfl⟩ := List.mem_map.mp listed
        exact tmp_ne_itemFile _ other same.symm
      rw [unnamed, Option.none_or, ← itemFile_of_name valid member found, (items _ last found).2]
    · cases body : (bodiesByFile bundle.items).find? name with
      | none => rw [Option.none_or]
      | some content =>
          have listed := OrderedMap.mem_of_find?_ofList body
          simp only [List.mem_map, Prod.mk.injEq] at listed
          obtain ⟨item, member, rfl, _⟩ := listed
          obtain ⟨last, found⟩ := last_of_member member
          rw [find?_bodiesByFile valid (valid item member), found, Option.map_some] at body
          rw [Option.some_or, ← body, ← itemFile_of_name valid member found, (items _ last found).1]

private theorem both_landed_iff (effect : Effect library env self start bundle later)
    (effect' : Effect library env self start bundle' later')
    (hit : bundle.header.target.hits self = true) (hit' : bundle'.header.target.hits self = true)
    (valid : bundle.Valid) (valid' : bundle'.Valid) (same : bundle.canonical = bundle'.canonical) :
    later.file? = later'.file? ↔ SameItems bundle.items bundle'.items := by
  obtain ⟨_, types, names⟩ := ConfigBundle.parts_of_canonical valid valid' same
  obtain ⟨versions, recording, files⟩ := effect.file? hit
  obtain ⟨versions', recording', files'⟩ := effect'.file? hit'
  have validItems : ∀ item ∈ bundle'.items, item.Valid bundle.header.bundleType := fun item member =>
    types ▸ valid' item member
  have texts := versionsText_eq_iff library (baseMembers (installedVersions library env start))
    valid validItems names
  rw [← recorded_eq_ok bundle.nonempty recording,
    ← recorded_eq_ok bundle'.nonempty recording'] at texts
  constructor
  · intro equal name
    have stored : versionsText library versions = versionsText library versions' := by
      have here := files versionsFile
      have there := files' versionsFile
      rw [if_pos rfl] at here there
      rw [equal, there] at here
      exact (Option.some.inj here).symm
    have recordedSame := texts.mp stored name
    rcases matched_of_names names name with ⟨first, second⟩ | ⟨item, item', first, second⟩
    · rw [first, second]
    · obtain ⟨member, named⟩ := mem_of_itemsByName first
      obtain ⟨member', named'⟩ := mem_of_itemsByName second
      have file : ConfigManager.itemFile item = ConfigManager.itemFile item' := by
        rw [(valid item member).file, (validItems item' member').file, named, named']
      have here := (effect.itemFile hit valid first).1
      have there := (effect'.itemFile hit' valid' second).1
      rw [equal, file, there, Option.some.injEq] at here
      rw [first, second, Option.map_some, Option.map_some, Option.some.injEq] at recordedSame
      rw [first, second, Option.map_some, Option.map_some, landedPart, landedPart, here,
        recordedSame]
  · intro agree
    have stored : versionsText library versions = versionsText library versions' := by
      refine texts.mpr fun name => ?_
      have parts := congrArg (Option.map Prod.snd) (agree name)
      rw [Option.map_map, Option.map_map] at parts
      exact parts
    have bodies := bodiesByFile_congr valid validItems agree
    have temporaries : ∀ name, (name ∈ bundle.items.map fun item => itemFile item ++ ".tmp") ↔
        name ∈ bundle'.items.map fun item => itemFile item ++ ".tmp" := by
      intro name
      simp only [List.mem_map]
      constructor
      · rintro ⟨item, member, rfl⟩
        obtain ⟨item', member', named⟩ := (names item.name).mp ⟨item, member, rfl⟩
        exact ⟨item', member', by
          rw [(valid item member).file, (validItems item' member').file, named]⟩
      · rintro ⟨item', member', rfl⟩
        obtain ⟨item, member, named⟩ := (names item'.name).mpr ⟨item', member', rfl⟩
        exact ⟨item, member, by
          rw [(valid item member).file, (validItems item' member').file, named]⟩
    funext name
    rw [files, files', stored, bodies]
    simp only [temporaries]

/-- Two accepted bundles with one canonical text leave the same configuration exactly
when the last items of each name agree, and no target makes a difference. -/
theorem sameConfiguration_iff (effect : Effect library env self start bundle later)
    (effect' : Effect library env self start bundle' later')
    (valid : bundle.Valid) (valid' : bundle'.Valid) (same : bundle.canonical = bundle'.canonical) :
    later.configuration = later'.configuration ↔ Agree library env self start bundle bundle' := by
  obtain ⟨seqs, _, _⟩ := ConfigBundle.parts_of_canonical valid valid' same
  have stored : later.maxSeqFile = later'.maxSeqFile := by
    rw [effect.maxSeq, effect'.maxSeq, seqs]
  have reduced : later.configuration = later'.configuration ↔ later.file? = later'.file? := by
    simp [ConfigDir.configuration, stored]
  have untouched : ∀ dir : ConfigDir, dir.current = start.current → dir.file? = start.file? := by
    intro dir kept
    funext name
    rw [ConfigDir.file?, ConfigDir.file?, kept]
  rw [reduced, Agree]
  cases hit : bundle.header.target.hits self with
  | true =>
      cases hit' : bundle'.header.target.hits self with
      | true => exact both_landed_iff effect effect' hit hit' valid valid' same
      | false =>
          rw [untouched later' (effect'.skipped hit')]
          exact effect.unchanged_iff hit valid
  | false =>
      cases hit' : bundle'.header.target.hits self with
      | true =>
          rw [untouched later (effect.skipped hit), eq_comm]
          exact effect'.unchanged_iff hit' valid'
      | false =>
          rw [untouched later (effect.skipped hit), untouched later' (effect'.skipped hit')]
          simp

end TwoRuns

section Samples

def emptySample : ConfigDir := ⟨none, none, none, []⟩

/-- The acceptance of a sample document and the run on its text. -/
def acceptSample (items : List (String × String)) : Checked ConfigBundle :=
  configManagerSample.accept acceptingCrypto 1500 0 (configDocument 5 "all" "all" items)

def runSample (samples : List (List (String × String))) (items : List (String × String)) :
    Outcome ConfigDir Json.Error ConfigApply :=
  (applyBundle configManagerSample (configLibrarySample samples) (fun _ => .none) acceptingCrypto
    deviceSample 1500 (configText items)).run emptySample

private theorem parse_sample (samples : List (List (String × String)))
    (items : List (String × String))
    (found : (samples.find? fun other => configText other == configText items) = some items) :
    (configLibrarySample samples).parse (configText items) =
      .ok (configDocument 5 "all" "all" items) := by
  simp only [configLibrarySample, found]

private def lands : Checked ConfigBundle → Outcome ConfigDir Json.Error ConfigApply → Bool
  | .ok _, .returned .applied _ => true
  | _, _ => false

theorem canonical_of_perm {bundle bundle' : ConfigBundle} (headers : bundle.header = bundle'.header)
    (permuted : bundle.items.Perm bundle'.items) : bundle.canonical = bundle'.canonical := by
  have lines : itemLines bundle.items = itemLines bundle'.items :=
    (List.perm_insertionSort _ _).trans
      ((permuted.map _).trans (List.perm_insertionSort _ _).symm) |>.eq_of_pairwise
        (fun _ _ _ _ => le_antisymm) (List.pairwise_insertionSort _ _)
        (List.pairwise_insertionSort _ _)
  rw [ConfigBundle.canonical, ConfigBundle.canonical, headers, lines]

private def landApart : Checked ConfigBundle → Checked ConfigBundle →
    Outcome ConfigDir Json.Error ConfigApply → Outcome ConfigDir Json.Error ConfigApply → Bool
  | .ok bundle, .ok bundle', .returned .applied later, .returned .applied later' =>
      decide (bundle.header = bundle'.header ∧ bundle.items = bundle'.items.reverse ∧
        later.file? "app_w_list.list" ≠ later'.file? "app_w_list.list")
  | _, _, _, _ => false

end Samples

end ConfigManager

end Idsm.Managerd
