import Idsm.Json.DumpProperties
import Idsm.Managerd.ConfigAdmissionProperties
import Idsm.VsocMock.Canonical

/-! The signer and the daemon write one canonical text for every bundle the daemon
admits. -/

set_option autoImplicit false

namespace Idsm

open Idsm.Foundation
open Idsm.Json (Value Printer dumpAt commaJoined)
open Idsm.Managerd

section Items

variable {printer : Printer} {content : ConfigContent} {name itemVersion : String}

/-- The value's text in a compact printer. -/
def contentText (printer : Printer) : ConfigContent → String
  | .list entries => commaJoined "[" (entries.map printer.literal) ++ "]"
  | .enable flags =>
      commaJoined "\x7b" (flags.entries.map fun flag =>
        printer.literal flag.1 ++ ":" ++ (if flag.2 then "1" else "0")) ++ "\x7d"

private theorem dumpItems_strings (printer : Printer) (level : Nat) (entries : List String) :
    Json.dumpItems printer level (entries.map .string) = entries.map printer.literal := by
  induction entries with
  | nil => simp [Json.dumpItems]
  | cons entry rest ih => simp [Json.dumpItems, dumpAt, ih]

private theorem dumpMembers_flags (printer : Printer) (level : Nat) (flags : List (String × Bool)) :
    Json.dumpMembers printer level (flags.map fun flag => (flag.1, flagValue flag.2)) =
      flags.map fun flag => (flag.1, if flag.2 then "1" else "0") := by
  induction flags with
  | nil => simp [Json.dumpMembers]
  | cons flag rest ih =>
      obtain ⟨key, value⟩ := flag
      have digit : dumpAt printer level (flagValue value) = if value then "1" else "0" := by
        cases value <;> rfl
      simp only [List.map_cons, Json.dumpMembers, digit, ih]

theorem dumpAt_content (compact : printer.step = none) (level : Nat) :
    dumpAt printer level content.value = contentText printer content := by
  cases content with
  | list entries =>
      rw [ConfigContent.value, dumpAt, dumpItems_strings, Json.bracketed_compact compact, contentText]
  | enable flags =>
      have ascending : (flags.entries.map fun flag => (flag.1, if flag.2 then "1" else "0")).Pairwise
          fun first second => first.1 < second.1 := List.pairwise_map.mpr flags.ascending
      rw [ConfigContent.value, dumpAt, dumpMembers_flags, Json.objectText,
        OrderedMap.entries_ofList ascending, Json.bracketed_compact compact, contentText,
        List.map_map]
      congr 2
      refine List.map_congr_left fun flag _ => ?_
      simp only [Function.comp_apply, Json.memberText, compact, Option.isSome_none,
        Bool.false_eq_true, if_false]

/-- An item's text: the three members in ascending order of their names. -/
theorem dumpAt_item (compact : printer.step = none) :
    dumpAt printer 0 (.object [("config_name", .string name), ("config_value", content.value),
        ("config_version", .string itemVersion)]) =
      "\x7b" ++ (printer.literal "config_name" ++ ":" ++ printer.literal name) ++ "," ++
        (printer.literal "config_value" ++ ":" ++ contentText printer content) ++ "," ++
        (printer.literal "config_version" ++ ":" ++ printer.literal itemVersion) ++ "\x7d" := by
  have ascending : [("config_name", dumpAt printer 1 (.string name)),
      ("config_value", dumpAt printer 1 content.value),
      ("config_version", dumpAt printer 1 (.string itemVersion))].Pairwise
        fun first second => first.1 < second.1 := by
    simp only [List.pairwise_cons, List.mem_cons, List.not_mem_nil, or_false, forall_eq_or_imp,
      forall_eq, false_imp_iff, implies_true, List.Pairwise.nil, and_true]
    decide
  rw [dumpAt, Json.dumpMembers, Json.dumpMembers, Json.dumpMembers, Json.dumpMembers,
    Json.objectText, OrderedMap.entries_ofList ascending, Json.bracketed_compact compact]
  simp only [List.map_cons, List.map_nil, commaJoined, List.foldl_cons, List.foldl_nil,
    Json.memberText, compact, Option.isSome_none, Bool.false_eq_true, if_false,
    dumpAt_content compact, dumpAt]

theorem canonJson_eq (item : ConfigItem) :
    item.canonJson =
      "\x7b" ++ (Json.quote "config_name" ++ ":" ++ Json.quote item.name) ++ "," ++
        (Json.quote "config_value" ++ ":" ++
          contentText (Json.nlohmann (fun _ => "") none) item.content) ++ "," ++
        (Json.quote "config_version" ++ ":" ++ Json.quote item.itemVersion) ++ "\x7d" := by
  rw [ConfigItem.canonJson, Json.dump, dumpAt_item rfl]
  rfl

end Items

section Admitted

variable {item : ConfigItem}

/-- A literal of an item's value stands in the item's text. -/
theorem mem_contentText {printer : Printer} {content : ConfigContent} {c : Char}
    (inside : match content with
      | .list entries => ∃ entry ∈ entries, c ∈ (printer.literal entry).toList
      | .enable flags => ∃ flag ∈ flags.entries, c ∈ (printer.literal flag.1).toList) :
    c ∈ (contentText printer content).toList := by
  cases content with
  | list entries =>
      obtain ⟨entry, listed, inside⟩ := inside
      rw [contentText, String.toList_append]
      exact List.mem_append_left _
        (Json.mem_commaJoined (List.mem_map_of_mem listed) inside)
  | enable flags =>
      obtain ⟨flag, listed, inside⟩ := inside
      rw [contentText, String.toList_append]
      refine List.mem_append_left _ (Json.mem_commaJoined (List.mem_map_of_mem listed) ?_)
      simp [String.toList_append, inside]

theorem mem_canonJson {c : Char}
    (inside : c ∈ (contentText (Json.nlohmann (fun _ => "") none) item.content).toList) :
    c ∈ item.canonJson.toList := by
  rw [canonJson_eq]
  simp [String.toList_append, inside]

/-- The texts in an item: its name, its version and the literals of its value. -/
def itemTexts (item : ConfigItem) : List String :=
  [item.name, item.itemVersion] ++
    match item.content with
    | .list entries => entries
    | .enable flags => flags.entries.map Prod.fst

/-- Raw characters above the ASCII range would show in the daemon's text. -/
theorem ascii_of_itemTexts {configType : Int} {it : Value} (read : item.ReadFrom configType it)
    {text : String} (listed : text ∈ itemTexts item) : ∀ c ∈ text.toList, c.toNat ≤ 0x7e := by
  have printable : ∀ {text : String}, isAsciiPrintable text = true → ∀ c ∈ text.toList,
      c.toNat ≤ 0x7e := fun printable c member => (isAsciiPrintable_iff.1 printable c member).2
  rw [itemTexts, List.mem_append, List.mem_cons, List.mem_singleton] at listed
  rcases listed with (rfl | rfl) | listed
  · exact printable read.printableName
  · exact printable read.printableVersion
  have shown : ∀ c, c ∈ (Json.quote text).toList → c.toNat ≤ 0x7e := by
    intro c inside
    refine printable read.canonical c (mem_canonJson (mem_contentText ?_))
    cases content : item.content with
    | list entries =>
        rw [content] at listed
        exact ⟨text, listed, inside⟩
    | enable flags =>
        rw [content] at listed
        obtain ⟨flag, member, rfl⟩ := List.mem_map.mp listed
        exact ⟨flag, member, inside⟩
  intro c member
  by_contra high
  have raw : Json.escaped c = [c] :=
    Json.escaped_of_plain (by simp only [Json.Plain]; omega)
      (by rintro rfl; exact absurd (by decide) high) (by rintro rfl; exact absurd (by decide) high)
  have inside : c ∈ (Json.quote text).toList := by
    rw [Json.toList_quote]
    refine List.mem_cons_of_mem _ (List.mem_append_left _ (List.mem_flatMap.mpr ⟨c, member, ?_⟩))
    simp [raw]
  exact high (shown c inside)

/-- Printers with the same literals for an item's texts write the same item. -/
theorem contentText_congr {printer printer' : Printer}
    (same : ∀ text ∈ itemTexts item, printer.literal text = printer'.literal text) :
    contentText printer item.content = contentText printer' item.content := by
  rw [itemTexts] at same
  cases content : item.content with
  | list entries =>
      rw [content] at same
      rw [contentText, contentText,
        List.map_congr_left fun text member => same text (List.mem_append_right _ member)]
  | enable flags =>
      rw [content] at same
      rw [contentText, contentText]
      congr 2
      refine List.map_congr_left fun flag member => ?_
      rw [same flag.1 (List.mem_append_right _ (List.mem_map_of_mem member))]

end Admitted

namespace VsocMock

/-- On ASCII the two serializers escape alike. -/
private theorem controls_escaped :
    ∀ n : Fin 32, asciiEscaped (Char.ofNat n) = Json.escaped (Char.ofNat n) := by
  decide

theorem asciiEscaped_eq {c : Char} (ascii : c.toNat ≤ 0x7e) : asciiEscaped c = Json.escaped c := by
  rcases Nat.lt_or_ge c.toNat 32 with control | printable
  · have same := controls_escaped ⟨c.toNat, control⟩
    rwa [Char.ofNat_toNat] at same
  · by_cases slash : c.toNat = 0x5C
    · simp [asciiEscaped, Json.escaped, slash]
    · by_cases mark : c.toNat = 0x22
      · simp [asciiEscaped, Json.escaped, mark]
      · rw [asciiEscaped, Json.escaped, if_neg slash, if_neg mark, if_neg (by omega),
          if_neg (by omega), if_neg (by omega), if_neg (by omega), if_neg (by omega),
          if_pos ⟨printable, ascii⟩, if_neg (by omega), if_neg (by omega), if_neg (by omega),
          if_neg (by omega), if_neg (by omega), if_neg mark, if_neg slash, if_neg (by omega)]

theorem asciiLiteral_eq {text : String} (ascii : ∀ c ∈ text.toList, c.toNat ≤ 0x7e) :
    asciiLiteral text = Json.quote text := by
  have escapes : text.toList.flatMap asciiEscaped = text.toList.flatMap Json.escaped :=
    List.flatMap_congr fun c member => asciiEscaped_eq (ascii c member)
  rw [asciiLiteral, Json.quote, escapes]

theorem configItemLine_eq {configType : Int} {it : Value} {item : ConfigItem}
    (read : item.ReadFrom configType it) :
    configItemLine item.name item.content.value item.itemVersion = item.canonicalLine := by
  have ascii := fun (text : String) (listed : text ∈ itemTexts item) =>
    ascii_of_itemTexts read listed
  have literals : ∀ text ∈ itemTexts item, asciiLiteral text = Json.quote text := fun text listed =>
    asciiLiteral_eq (ascii text listed)
  have value : contentText (python fun _ => "") item.content =
      contentText (Json.nlohmann (fun _ => "") none) item.content := contentText_congr literals
  have json : dumps (.object [("config_name", .string item.name),
      ("config_value", item.content.value), ("config_version", .string item.itemVersion)]) =
      item.canonJson := by
    rw [dumps, dumpAt_item rfl, canonJson_eq, value]
    have name : asciiLiteral item.name = Json.quote item.name :=
      literals _ (by simp [itemTexts])
    have version : asciiLiteral item.itemVersion = Json.quote item.itemVersion :=
      literals _ (by simp [itemTexts])
    have keys : asciiLiteral "config_name" = Json.quote "config_name" ∧
        asciiLiteral "config_value" = Json.quote "config_value" ∧
        asciiLiteral "config_version" = Json.quote "config_version" := by decide
    simp only [python, name, version, keys]
  rw [configItemLine, ConfigItem.canonicalLine, itemLine, ← json]

theorem toList_intercalate_lines (first : String) (lines : List String) :
    ("\n".intercalate (first :: lines) ++ "\n").toList =
      terminated '\n' ((first :: lines).map String.toList) := by
  have newline : "\n".toList = ['\n'] := by decide
  induction lines generalizing first with
  | nil => simp [newline, String.intercalate_singleton]
  | cons line rest ih =>
      rw [String.intercalate_cons_cons, String.append_assoc, String.toList_append, ih]
      simp [newline]

/-- The signer and the daemon agree on every admitted draft. -/
theorem signedBytes_eq {now : Int} {document : Value} {draft : ConfigDraft}
    (read : draft.ReadFrom now document) :
    signedBytes draft.header draft.items = utf8 draft.bundle.canonical := by
  obtain ⟨values, _, items⟩ := read.items
  have lines : (draft.items.map fun item =>
      configItemLine item.name item.content.value item.itemVersion) =
      draft.items.map ConfigItem.canonicalLine := by
    refine List.map_congr_left fun item member => ?_
    obtain ⟨index, bound, rfl⟩ := List.getElem_of_mem member
    exact configItemLine_eq (items.get (by rw [items.length_eq]; exact bound) bound)
  have newline : "\n".toList = ['\n'] := by decide
  have equals : "=".toList = ['='] := by decide
  have typeKey : "config_type=".toList = "config_type".toList ++ ['='] := by decide
  rw [signedBytes, lines, canonicalConfigBytes, List.cons_append]
  refine congrArg utf8 (String.toList_inj.mp ?_)
  rw [toList_intercalate_lines, ConfigBundle.canonical, Managerd.canonicalConfigBytes,
    Managerd.canonicalBytes, toList_foldl_lines]
  simp only [List.map_cons, List.cons_append, List.nil_append, terminated_cons,
    String.toList_append, newline, equals, typeKey, List.append_assoc]
  rfl

end VsocMock

end Idsm
