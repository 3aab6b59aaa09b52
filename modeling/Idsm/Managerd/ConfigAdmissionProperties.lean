import Idsm.Managerd.ConfigManager
import Idsm.Managerd.SignedBundleProperties

/-! What an admitted configuration bundle has passed. -/

set_option autoImplicit false

namespace Idsm.Managerd

open Idsm.Foundation
open Idsm.Json (Value)

theorem isAsciiPrintable_iff {s : String} :
    isAsciiPrintable s = true ↔ ∀ c ∈ s.toList, 0x20 ≤ c.toNat ∧ c.toNat ≤ 0x7e := by
  simp [isAsciiPrintable]

theorem newline_notMem_of_isAsciiPrintable {s : String} (printable : isAsciiPrintable s = true) :
    '\n' ∉ s.toList := fun member =>
  absurd (isAsciiPrintable_iff.1 printable _ member).1 (by decide)

theorem toList_itemLine (name json : String) :
    (itemLine name json).toList =
      "item:".toList ++ (name.toList ++ ':' :: (base64Encode (utf8 json)).toList) := by
  have colon : ":".toList = [':'] := by decide
  simp only [itemLine, String.toList_append, colon, List.append_assoc, List.cons_append,
    List.nil_append]

/-- Item lines with printable names are payload lines of a configuration. -/
theorem sortedItemLines_payload {pairs : List (String × String)}
    (printable : ∀ pair ∈ pairs, isAsciiPrintable pair.1 = true) :
    PayloadLines 'c' (sortLines (pairs.map fun pair => itemLine pair.1 pair.2)) := by
  have listed : ∀ line ∈ sortLines (pairs.map fun pair => itemLine pair.1 pair.2),
      ∃ pair ∈ pairs, line = itemLine pair.1 pair.2 := by
    intro line member
    rw [(sortLines_perm _).mem_iff] at member
    obtain ⟨pair, kept, rfl⟩ := List.mem_map.mp member
    exact ⟨pair, kept, rfl⟩
  constructor
  · intro line lineMember
    obtain ⟨pair, member, rfl⟩ := listed line lineMember
    rw [toList_itemLine, List.mem_append, List.mem_append, List.mem_cons]
    rintro (word | name | colon | encoded)
    · exact absurd word (by decide)
    · exact newline_notMem_of_isAsciiPrintable (printable pair member) name
    · exact absurd colon (by decide)
    · exact newline_notMem_base64Encode _ encoded
  · intro line lineMember
    obtain ⟨pair, member, rfl⟩ := listed line lineMember
    have word : "item:".toList = ['i', 't', 'e', 'm', ':'] := by decide
    simp [toList_itemLine, word]

theorem listEntries_eq_ok {name : String} {values : List Value} {entries : List String} :
    listEntries name values = .ok entries ↔
      values = entries.map .string ∧ ∀ entry ∈ entries, isAsciiPrintable entry = true := by
  induction values generalizing entries with
  | nil => cases entries <;> simp [listEntries]
  | cons value rest ih =>
      cases value with
      | string entry =>
          simp only [listEntries, bind_eq_ok]
          constructor
          · rintro ⟨⟨printable⟩, _, later, read, result⟩
            cases result
            obtain ⟨rfl, printables⟩ := ih.mp read
            exact ⟨rfl, by simpa using ⟨printable, printables⟩⟩
          · rintro ⟨equal, printables⟩
            cases entries with
            | nil => simp at equal
            | cons entry' later =>
                simp only [List.map_cons, List.cons.injEq, Value.string.injEq] at equal
                obtain ⟨rfl, rfl⟩ := equal
                exact ⟨⟨printables _ (by simp)⟩, require_of _, later,
                  ih.mpr ⟨rfl, fun other member => printables other (by simp [member])⟩, rfl⟩
      | null => cases entries <;> simp [listEntries, reject]
      | boolean flag => cases entries <;> simp [listEntries, reject]
      | unsigned number => cases entries <;> simp [listEntries, reject]
      | integer number => cases entries <;> simp [listEntries, reject]
      | float number => cases entries <;> simp [listEntries, reject]
      | array items => cases entries <;> simp [listEntries, reject]
      | object members => cases entries <;> simp [listEntries, reject]

theorem enableFlags_eq_ok {members : List (String × Value)} {flags : List (String × Bool)} :
    enableFlags members = .ok flags ↔
      List.Forall₂ (fun member flag => member.1 = flag.1 ∧ flagOf member.2 = some flag.2)
        members flags := by
  induction members generalizing flags with
  | nil => cases flags <;> simp [enableFlags]
  | cons member rest ih =>
      obtain ⟨key, value⟩ := member
      rw [enableFlags]
      cases read : flagOf value with
      | none => cases flags <;> simp [reject, read]
      | some flag =>
          simp only [bind_eq_ok]
          constructor
          · rintro ⟨later, laterRead, result⟩
            cases result
            exact .cons ⟨rfl, read⟩ (ih.mp laterRead)
          · intro pairs
            cases pairs with
            | cons first others =>
                obtain ⟨same, flagged⟩ := first
                rw [read, Option.some.injEq] at flagged
                exact ⟨_, ih.mpr others, by subst flagged; rw [show key = _ from same]; rfl⟩

/-- The value an item's content was read from. -/
inductive ConfigContent.ReadFrom (configType : Int) (name : String) : Value → ConfigContent → Prop
  | list {entries : List String} (type : configType = 1) (named : validListName name = true)
      (printable : ∀ entry ∈ entries, isAsciiPrintable entry = true) :
      ReadFrom configType name (.array (entries.map .string)) (.list entries)
  | enable {members : List (String × Value)} {flags : List (String × Bool)}
      (type : configType ≠ 1) (named : name = "rule_enable") (nonempty : members ≠ [])
      (read : enableFlags (Json.membersOf members).entries = .ok flags) :
      ReadFrom configType name (.object members) (.enable (.ofList flags))

theorem readContent_eq_ok {configType : Int} {name : String} {value : Value}
    {content : ConfigContent} :
    readContent configType name value = .ok content ↔
      ConfigContent.ReadFrom configType name value content := by
  unfold readContent
  constructor
  · intro read
    split at read
    next type =>
      rw [bind_eq_ok] at read
      obtain ⟨⟨named⟩, _, read⟩ := read
      split at read
      next items =>
        rw [bind_eq_ok] at read
        obtain ⟨entries, entriesRead, result⟩ := read
        cases result
        obtain ⟨rfl, printable⟩ := listEntries_eq_ok.1 entriesRead
        exact .list type named printable
      next => simp [reject] at read
    next type =>
      rw [bind_eq_ok] at read
      obtain ⟨⟨named⟩, _, read⟩ := read
      split at read
      next member members =>
        rw [bind_eq_ok] at read
        obtain ⟨flags, flagsRead, result⟩ := read
        cases result
        exact .enable type named (by simp) flagsRead
      next => simp [reject] at read
  · intro facts
    cases facts with
    | list type named printable =>
        rw [if_pos type, bind_eq_ok]
        refine ⟨⟨named⟩, require_of named, ?_⟩
        simp only [listEntries_eq_ok.2 ⟨rfl, printable⟩, bind, Except.bind, pure, Except.pure]
    | enable type named nonempty read =>
        rename_i members flags
        rw [if_neg type, bind_eq_ok]
        refine ⟨⟨named⟩, require_of named, ?_⟩
        cases members with
        | nil => exact absurd rfl nonempty
        | cons member members =>
            simp only [read, bind, Except.bind, pure, Except.pure]

/-- The document an item was read from. -/
structure ConfigItem.ReadFrom (configType : Int) (it : Value) (item : ConfigItem) : Prop where
  object : it.isObject = true
  fields : ∀ key ∈ itemFields, it.contains key = true
  name : (it.field "config_name").getString = .ok item.name
  itemVersion : (it.field "config_version").getString = .ok item.itemVersion
  printableName : isAsciiPrintable item.name = true
  printableVersion : isAsciiPrintable item.itemVersion = true
  content : ConfigContent.ReadFrom configType item.name (it.field "config_value") item.content
  canonical : isAsciiPrintable item.canonJson = true

theorem readItem_eq_ok {configType : Int} {it : Value} {item : ConfigItem} :
    readItem configType it = .ok item ↔ item.ReadFrom configType it := by
  simp only [readItem, bind_eq_ok, unguarded_eq_ok]
  constructor
  · rintro ⟨⟨present⟩, -, name, nameRead, version, versionRead, ⟨printable⟩, -, content, read,
      ⟨canonical⟩, -, result⟩
    cases result
    exact ⟨present.1, present.2, nameRead, versionRead, printable.1, printable.2,
      readContent_eq_ok.1 read, canonical⟩
  · intro facts
    exact ⟨⟨facts.object, facts.fields⟩, require_of _, item.name, facts.name, item.itemVersion,
      facts.itemVersion, ⟨facts.printableName, facts.printableVersion⟩, require_of _, item.content,
      readContent_eq_ok.2 facts.content, ⟨facts.canonical⟩, require_of facts.canonical, rfl⟩

theorem readItems_eq_ok {configType : Int} {values : List Value} {items : List ConfigItem} :
    readItems configType values = .ok items ↔
      List.Forall₂ (fun value item => item.ReadFrom configType value) values items := by
  induction values generalizing items with
  | nil => cases items <;> simp [readItems]
  | cons value rest ih =>
      simp only [readItems, bind_eq_ok]
      constructor
      · rintro ⟨item, read, later, laterRead, result⟩
        cases result
        exact .cons (readItem_eq_ok.1 read) (ih.mp laterRead)
      · intro pairs
        cases pairs with
        | cons first others => exact ⟨_, readItem_eq_ok.2 first, _, ih.mpr others, rfl⟩

theorem itemValues_eq_ok {bundle : Value} {values : { values : List Value // values ≠ [] }} :
    itemValues bundle = .ok values ↔ bundle.field "items" = .array values.val := by
  obtain ⟨values, nonempty⟩ := values
  rw [itemValues]
  split
  next value rest found =>
    rw [found]
    simp
  next absent =>
    constructor
    · intro impossible
      simp [reject] at impossible
    · intro found
      cases values with
      | nil => exact absurd rfl nonempty
      | cons value rest => exact absurd found (absent value rest)

theorem checkItems_eq_ok {configType : Int} {values : { values : List Value // values ≠ [] }}
    {items : { items : List ConfigItem // items ≠ [] }} :
    checkItems configType values = .ok items ↔ readItems configType values.val = .ok items.val := by
  rw [checkItems]
  split
  next stop failed => simp [failed]
  next found read => simp [read, Subtype.ext_iff]

/-- The document a draft was read from. -/
structure ConfigDraft.ReadFrom (now : Int) (bundle : Value) (draft : ConfigDraft) : Prop where
  fields : requireFields configFields bundle = .ok ()
  msgType : (bundle.field "msg_type").getString = .ok "config_update"
  sigAlg : (bundle.field "sig_alg").getString = .ok "Ed25519"
  scalars : readScalars bundle "config_type" = .ok draft.scalars
  items : ∃ values, bundle.field "items" = .array values ∧
    List.Forall₂ (fun value item => ConfigItem.ReadFrom draft.scalars.bundleType value item)
      values draft.items
  target : readTarget (bundle.field "target") = .ok draft.target
  unexpired : now - kClockSkewToleranceSec ≤ draft.scalars.expiresAt
  issued : draft.scalars.issuedAt ≤ now + kClockSkewToleranceSec

theorem readConfigDraft_eq_ok {now : Int} {bundle : Value} {draft : ConfigDraft} :
    readConfigDraft now bundle = .ok draft ↔ draft.ReadFrom now bundle := by
  simp only [readConfigDraft, bind_eq_ok]
  constructor
  · rintro ⟨⟨⟩, fields, ⟨⟩, msgType, ⟨⟩, sigAlg, scalars, scalarsRead, ⟨positive⟩, -, ⟨named⟩, -,
      ⟨kind⟩, -, values, valuesRead, target, targetRead, items, itemsRead, ⟨⟩, times, result⟩
    cases result
    have times := checkTimes_eq_ok.1 times
    exact ⟨fields, requireText_eq_ok.1 msgType, requireText_eq_ok.1 sigAlg,
      unguarded_eq_ok.1 scalarsRead,
      ⟨values.val, itemValues_eq_ok.1 valuesRead,
        readItems_eq_ok.1 (checkItems_eq_ok.1 itemsRead)⟩, targetRead, times.1, times.2⟩
  · intro facts
    obtain ⟨scalars, target, items, positive, named, kind, nonempty⟩ := draft
    obtain ⟨values, found, read⟩ := facts.items
    have some : values ≠ [] := by
      rintro rfl
      cases read
      exact nonempty rfl
    exact ⟨(), facts.fields, (), requireText_eq_ok.2 facts.msgType, (),
      requireText_eq_ok.2 facts.sigAlg, scalars, unguarded_eq_ok.2 facts.scalars,
      ⟨positive⟩, require_of positive, ⟨named⟩, require_of named, ⟨kind⟩, require_of kind,
      ⟨values, some⟩, itemValues_eq_ok.2 found, target, facts.target, ⟨items, nonempty⟩,
      checkItems_eq_ok.2 (readItems_eq_ok.2 read), (),
      checkTimes_eq_ok.2 ⟨facts.unexpired, facts.issued⟩, rfl⟩

/-- The draft an admitted bundle comes from, with what admission checked on it. -/
structure ConfigBundle.DrawnFrom (manager : ConfigManager) (crypto : Crypto) (maxSeq : Int)
    (draft : ConfigDraft) (bundle : ConfigBundle) : Prop where
  above : maxSeq < draft.scalars.seq
  items : bundle.items = draft.items
  header : bundle.header = draft.header
  authentic : authenticate crypto manager.pubkeyB64 "config" bundle.canonical draft.scalars = .ok ()

namespace ConfigManager

variable {manager : ConfigManager} {crypto : Crypto} {now maxSeq : Int}

theorem authorize_eq_ok {draft : ConfigDraft} {bundle : ConfigBundle} :
    manager.authorize crypto maxSeq draft = .ok bundle ↔
      bundle.DrawnFrom manager crypto maxSeq draft := by
  simp only [authorize, bind_eq_ok]
  constructor
  · rintro ⟨⟨⟩, above, ⟨⟩, authentic, result⟩
    cases result
    exact ⟨checkSeq_eq_ok.1 above, rfl, rfl, authentic⟩
  · rintro ⟨above, listed, header, authentic⟩
    obtain ⟨_, items, kind, nonempty⟩ := bundle
    subst header listed
    exact ⟨(), checkSeq_eq_ok.2 above, (), authentic, rfl⟩

theorem accept_eq_ok {document : Value} {bundle : ConfigBundle} :
    manager.accept crypto now maxSeq document = .ok bundle ↔
      ∃ draft : ConfigDraft, draft.ReadFrom now document ∧
        bundle.DrawnFrom manager crypto maxSeq draft := by
  simp only [accept, bind_eq_ok, readConfigDraft_eq_ok, authorize_eq_ok]

end ConfigManager

end Idsm.Managerd
