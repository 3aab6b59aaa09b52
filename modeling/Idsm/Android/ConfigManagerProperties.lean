import Idsm.Android.ConfigManager
import Idsm.Managerd.ConfigIntegrityProperties
import Idsm.VsocMock.CanonicalProperties

/-! The Android manager closes the value of every item twice. The payloads of its
lines are together one brace an item longer than the daemon's, so the two texts
differ for every bundle. -/

set_option autoImplicit false

namespace Idsm.Android

open Idsm.Foundation
open Idsm.Json (Value commaJoined)
open Idsm.Managerd

private theorem jsonStr_escapes (text : List Char) :
    (text.flatMap fun c => if c = '\\' then "\\\\".toList else [c]).flatMap
        (fun c => if c = '"' then "\\\"".toList else [c]) =
      text.flatMap fun c =>
        if c = '\\' then "\\\\".toList else if c = '"' then "\\\"".toList else [c] := by
  rw [List.flatMap_assoc]
  refine List.flatMap_congr fun c _ => ?_
  by_cases slash : c = '\\'
  · subst slash
    decide
  · rw [if_neg slash, if_neg slash]
    simp

theorem toList_jsonStr (text : String) :
    (jsonStr text).toList =
      '"' :: (text.toList.flatMap fun c =>
        if c = '\\' then "\\\\".toList else if c = '"' then "\\\"".toList else [c]) ++ ['"'] := by
  have mark : "\"".toList = ['"'] := by decide
  simp only [jsonStr, replace, String.toList_append, String.toList_ofList, mark, jsonStr_escapes,
    List.cons_append, List.nil_append]

/-- Without control characters both managers write the same literal. -/
theorem jsonStr_eq {text : String} (plain : ∀ c ∈ text.toList, Json.Plain c) :
    jsonStr text = Json.quote text := by
  refine String.toList_inj.mp ?_
  rw [toList_jsonStr, Json.toList_quote, List.cons_append]
  congr 2
  refine List.flatMap_congr fun c member => ?_
  by_cases slash : c = '\\'
  · subst slash
    decide
  by_cases mark : c = '"'
  · subst mark
    decide
  · rw [if_neg slash, if_neg mark, Json.escaped_of_plain (plain c member) mark slash]

theorem mem_jsonStr {text : String} {c : Char} (member : c ∈ text.toList) :
    c ∈ (jsonStr text).toList := by
  rw [toList_jsonStr]
  refine List.mem_append_left _ (List.mem_cons_of_mem _ (List.mem_flatMap.mpr ⟨c, member, ?_⟩))
  by_cases slash : c = '\\'
  · subst slash
    decide
  by_cases mark : c = '"'
  · subst mark
    decide
  · simp [slash, mark]

/-- The printer whose literals are the manager's. -/
private def literals : Json.Printer := ⟨jsonStr, fun _ => "", none⟩

private theorem appendAll_eq (sb : String) (pieces : List String) :
    appendAll sb pieces = commaJoined sb pieces := by
  cases pieces <;> rfl

private theorem commaJoined_append (front start : String) (pieces : List String) :
    commaJoined (front ++ start) pieces = front ++ commaJoined start pieces := by
  have folded : ∀ (pieces : List String) (start : String),
      pieces.foldl (fun out later => out ++ "," ++ later) (front ++ start) =
        front ++ pieces.foldl (fun out later => out ++ "," ++ later) start := by
    intro pieces
    induction pieces with
    | nil => intro start; rfl
    | cons later rest ih =>
        intro start
        rw [List.foldl_cons, List.foldl_cons, ← ih]
        simp only [String.append_assoc]
  cases pieces with
  | nil => rfl
  | cons piece rest => rw [commaJoined, commaJoined, String.append_assoc, folded]

theorem buildCanonItemJson_eq (item : ConfigItem) :
    buildCanonItemJson item.name item.content item.itemVersion =
      "\x7b\"config_name\":" ++ jsonStr item.name ++ ",\"config_value\":" ++
        contentText literals item.content ++ "\x7d,\"config_version\":" ++
        jsonStr item.itemVersion ++ "\x7d" := by
  rw [buildCanonItemJson]
  congr 3
  cases item.content with
  | list entries =>
      have opened : ",\"config_value\":[" = ",\"config_value\":" ++ "[" := by decide
      rw [appendValue, appendAll_eq, opened, ← String.append_assoc, commaJoined_append, contentText,
        String.append_assoc]
      rfl
  | enable flags =>
      have opened : ",\"config_value\":\x7b" = ",\"config_value\":" ++ "\x7b" := by decide
      rw [appendValue, appendAll_eq, opened, ← String.append_assoc, commaJoined_append, contentText,
        String.append_assoc]
      rfl

/-- With plain texts the manager writes the daemon's item text and one brace more. -/
theorem exists_extra_brace {item : ConfigItem}
    (plain : ∀ text ∈ itemTexts item, ∀ c ∈ text.toList, Json.Plain c) :
    ∃ front back : String, item.canonJson = front ++ back ∧
      buildCanonItemJson item.name item.content item.itemVersion = front ++ "\x7d" ++ back := by
  have same : ∀ text ∈ itemTexts item, jsonStr text = Json.quote text := fun text listed =>
    jsonStr_eq (plain text listed)
  have value : contentText literals item.content =
      contentText (Json.nlohmann (fun _ => "") none) item.content := contentText_congr same
  have names : "\x7b" ++ (Json.quote "config_name" ++ ":") = "\x7b\"config_name\":" ∧
      "," ++ (Json.quote "config_value" ++ ":") = ",\"config_value\":" ∧
      "," ++ (Json.quote "config_version" ++ ":") = ",\"config_version\":" ∧
      "\x7d,\"config_version\":" = "\x7d" ++ ",\"config_version\":" := by decide
  refine ⟨"\x7b\"config_name\":" ++ Json.quote item.name ++ ",\"config_value\":" ++
      contentText (Json.nlohmann (fun _ => "") none) item.content,
    ",\"config_version\":" ++ Json.quote item.itemVersion ++ "\x7d", ?_, ?_⟩
  · rw [canonJson_eq, ← names.1, ← names.2.1, ← names.2.2.1]
    simp only [String.append_assoc]
  · rw [buildCanonItemJson_eq, value, same item.name (by simp [itemTexts]),
      same item.itemVersion (by simp [itemTexts]), names.2.2.2]
    simp only [String.append_assoc]

/-- A control character of an item's text stands raw in the manager's item text. -/
theorem plain_of_printable {item : ConfigItem}
    (printable : isAsciiPrintable (buildCanonItemJson item.name item.content item.itemVersion) =
      true) :
    ∀ text ∈ itemTexts item, ∀ c ∈ text.toList, Json.Plain c := by
  intro text listed c member
  refine (isAsciiPrintable_iff.1 printable c ?_).1
  have inside := mem_jsonStr member
  rw [buildCanonItemJson_eq]
  rw [itemTexts, List.mem_append, List.mem_cons, List.mem_singleton] at listed
  rcases listed with (rfl | rfl) | listed
  · simp [String.toList_append, inside]
  · simp [String.toList_append, inside]
  · have shown : c ∈ (contentText literals item.content).toList := by
      refine mem_contentText ?_
      cases content : item.content with
      | list entries =>
          rw [content] at listed
          exact ⟨text, listed, inside⟩
      | enable flags =>
          rw [content] at listed
          obtain ⟨flag, flagged, rfl⟩ := List.mem_map.mp listed
          exact ⟨flag, flagged, inside⟩
    simp [String.toList_append, shown]

/-- The daemon's lines of payload texts. -/
def linesOf (json : ConfigItem → String) (items : List ConfigItem) : List String :=
  sortLines (items.map fun item => itemLine item.name (json item))

def androidJson (item : ConfigItem) : String :=
  buildCanonItemJson item.name item.content item.itemVersion

theorem signedBytes_eq (header : Header) (items : List ConfigItem) :
    signedBytes header items = utf8 (canonicalConfigBytes header.seq header.tenant header.version
      header.rollback header.target.ecu header.target.nodeType header.target.vmodel header.issuedAt
      header.expiresAt header.bundleType (linesOf androidJson items)) := by
  have typeKey : "config_type=" = "config_type" ++ "=" := by decide
  rw [signedBytes, canonicalBytes, canonicalConfigBytes, Managerd.canonicalBytes, typeKey]
  simp only [String.append_assoc]
  rfl

/-- The payload of an item line. -/
def payloadOf (line : String) : Option (List UInt8) :=
  base64Decode (utf8 (String.ofList (((line.toList.drop 5).dropWhile (· ≠ ':')).drop 1)))

theorem payloadOf_itemLine {name : String} (colonless : ':' ∉ name.toList) (json : String) :
    payloadOf (itemLine name json) = some (utf8 json) := by
  have word : "item:".toList = ['i', 't', 'e', 'm', ':'] := by decide
  have skipped : name.toList.dropWhile (· ≠ ':') = [] := by
    refine List.dropWhile_eq_nil_iff.mpr fun c member => ?_
    simpa using fun same : c = ':' => colonless (same ▸ member)
  rw [payloadOf, toList_itemLine, word]
  simp only [List.cons_append, List.nil_append, List.drop_succ_cons, List.drop_zero]
  rw [List.dropWhile_append, skipped]
  simp only [List.isEmpty_nil, if_true, ne_eq, not_true_eq_false, decide_false, Bool.false_eq_true,
    not_false_eq_true, List.dropWhile_cons_of_neg, List.drop_succ_cons, List.drop_zero,
    String.ofList_toList]
  exact base64Decode_base64Encode _

/-- Equal line lists carry the same payloads. -/
theorem payloads_of_lines {items : List ConfigItem} {json json' : ConfigItem → String}
    (colonless : ∀ item ∈ items, ':' ∉ item.name.toList)
    (same : linesOf json items = linesOf json' items) :
    (items.map fun item => utf8 (json item)).Perm (items.map fun item => utf8 (json' item)) := by
  have lines : (items.map fun item => itemLine item.name (json item)).Perm
      (items.map fun item => itemLine item.name (json' item)) := by
    have sorted : sortLines (items.map fun item => itemLine item.name (json item)) =
        sortLines (items.map fun item => itemLine item.name (json' item)) := same
    refine (sortLines_perm _).symm.trans ?_
    rw [sorted]
    exact sortLines_perm _
  have payloads : ∀ json : ConfigItem → String,
      (items.map fun item => itemLine item.name (json item)).map payloadOf =
        (items.map fun item => utf8 (json item)).map some := by
    intro json
    rw [List.map_map, List.map_map]
    refine List.map_congr_left fun item member => ?_
    rw [Function.comp_apply, Function.comp_apply, payloadOf_itemLine (colonless item member)]
  have wrapped := lines.map payloadOf
  rw [payloads json, payloads json'] at wrapped
  exact (List.map_perm_map_iff (Option.some_injective _)).mp wrapped

/-- Printable payloads of the manager are together one byte an item longer. -/
theorem payloads_longer {items : List ConfigItem}
    (printable : ∀ item ∈ items, isAsciiPrintable (androidJson item) = true) :
    (items.map fun item => (utf8 (androidJson item)).length).sum =
      (items.map fun item => (utf8 item.canonJson).length).sum + items.length := by
  induction items with
  | nil => rfl
  | cons item rest ih =>
      have step : (utf8 (androidJson item)).length = (utf8 item.canonJson).length + 1 := by
        obtain ⟨front, back, daemon, manager⟩ :=
          exists_extra_brace (plain_of_printable (printable item (by simp)))
        have brace : (utf8 "\x7d").length = 1 := by decide
        rw [androidJson, manager, daemon, utf8_append, utf8_append, utf8_append]
        simp only [List.length_append, brace]
        omega
      have later := ih fun other member => printable other (by simp [member])
      simp only [List.map_cons, List.sum_cons, List.length_cons, step, later]
      omega

theorem linesOf_ne {items : List ConfigItem} (nonempty : items ≠ [])
    (colonless : ∀ item ∈ items, ':' ∉ item.name.toList)
    (printable : ∀ item ∈ items, isAsciiPrintable item.canonJson = true) :
    linesOf androidJson items ≠ linesOf ConfigItem.canonJson items := by
  intro same
  have payloads := payloads_of_lines colonless same
  have shown : ∀ item ∈ items, isAsciiPrintable (androidJson item) = true := by
    intro item member
    have listed := payloads.subset (List.mem_map_of_mem member)
    obtain ⟨other, otherMember, equal⟩ := List.mem_map.mp listed
    rw [← utf8_injective equal]
    exact printable other otherMember
  have lengths := (payloads.map List.length).sum_eq
  rw [List.map_map, List.map_map] at lengths
  have longer := payloads_longer shown
  have present : items.length ≠ 0 := fun empty => nonempty (List.length_eq_zero_iff.mp empty)
  simp only [Function.comp_def] at lengths
  omega

theorem signedBytes_ne {now : Int} {document : Value} {draft : ConfigDraft}
    (read : draft.ReadFrom now document) :
    signedBytes draft.header draft.items ≠ utf8 draft.bundle.canonical := by
  intro same
  obtain ⟨values, _, items⟩ := read.items
  have readFrom : ∀ item ∈ draft.items, ∃ it,
      ConfigItem.ReadFrom draft.scalars.bundleType it item := by
    intro item member
    obtain ⟨index, bound, rfl⟩ := List.getElem_of_mem member
    exact ⟨_, items.get (by rw [items.length_eq]; exact bound) bound⟩
  have payload : ∀ json : ConfigItem → String, PayloadLines 'c' (linesOf json draft.items) := by
    intro json
    have pairs : linesOf json draft.items = sortLines ((draft.items.map fun item =>
        (item.name, json item)).map fun pair => itemLine pair.1 pair.2) := by
      rw [List.map_map]
      rfl
    rw [pairs]
    refine sortedItemLines_payload fun pair member => ?_
    obtain ⟨item, kept, rfl⟩ := List.mem_map.mp member
    exact (readFrom item kept).choose_spec.printableName
  rw [signedBytes_eq] at same
  have lines := (canonicalBytes_parts (markOf "config_type=" (by decide)) 'c'
    "onfig_type=".toList (by decide) (by decide) (by decide) (payload androidJson)
    (payload ConfigItem.canonJson) (utf8_injective same)).1.2.2.2.2
  exact linesOf_ne draft.nonempty
    (fun item member => (readFrom item member).choose_spec.valid.colonless)
    (fun item member => (readFrom item member).choose_spec.canonical) lines

/-- No bundle that passes the field checks has one text in all three places: the
signer agrees with the daemon, and the manager with neither. -/
theorem signedBytes_disagree {now : Int} {document : Value} {draft : ConfigDraft}
    (read : readConfigDraft now document = .ok draft) :
    VsocMock.signedBytes draft.header draft.items = utf8 draft.bundle.canonical ∧
      signedBytes draft.header draft.items ≠ utf8 draft.bundle.canonical :=
  ⟨VsocMock.signedBytes_eq (readConfigDraft_eq_ok.1 read),
    signedBytes_ne (readConfigDraft_eq_ok.1 read)⟩

section Samples

theorem signedBytes_disagree_sample :
    ∃ draft, readConfigDraft 1500 ConfigManager.documentSample = .ok draft ∧
      VsocMock.signedBytes draft.header draft.items = utf8 draft.bundle.canonical ∧
      signedBytes draft.header draft.items ≠ utf8 draft.bundle.canonical := by
  obtain ⟨draft, read⟩ := ConfigManager.readConfigDraft_sample
  exact ⟨draft, read, signedBytes_disagree read⟩

/-- The manager and the daemon sign different bytes. -/
theorem signedBytes_not_shared :
    ¬ ∀ draft, readConfigDraft 1500 ConfigManager.documentSample = .ok draft →
      signedBytes draft.header draft.items = utf8 draft.bundle.canonical := by
  intro shared
  obtain ⟨draft, read⟩ := ConfigManager.readConfigDraft_sample
  exact signedBytes_ne (readConfigDraft_eq_ok.1 read) (shared draft read)

end Samples

end Idsm.Android
