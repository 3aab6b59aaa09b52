import Idsm.Managerd.ConfigIntegrityProperties
import Idsm.Managerd.RuleAdmissionProperties

/-! The two signed formats share their first nine lines and a key. Their last line
tells them apart: a rule in one, an item in the other. -/

set_option autoImplicit false

namespace Idsm.Managerd

open Idsm.Foundation
open Idsm.Json (Value)

section LastLine

variable {typeKey tenant version : String} {seq issuedAt expiresAt bundleType : Int}
  {rollback : Bool} {target : Target} {lines : List String}

/-- A canonical text with payload ends in its last payload line. -/
theorem exists_last_payload (typeMark : Separator '\n')
    (named : typeMark.text = '\n' :: (typeKey.toList ++ ['='])) (nonempty : lines ≠ []) :
    ∃ (front : List Char) (others : List (List Char)), ∃ last ∈ lines,
      (canonicalBytes typeKey seq tenant version rollback target.ecu target.nodeType target.vmodel
          issuedAt expiresAt bundleType lines).toList =
        front ++ '\n' :: terminated '\n' (others ++ [last.toList]) := by
  obtain ⟨others, last, rfl⟩ : ∃ others last, lines = others ++ [last] :=
    ⟨lines.dropLast, lines.getLast nonempty, (List.dropLast_append_getLast nonempty).symm⟩
  have text := toList_canonicalBytes typeKey typeMark named seq tenant version rollback target
    issuedAt expiresAt bundleType (others ++ [last])
  rw [terminated_cons, List.map_append, List.map_singleton, ← List.append_assoc,
    ← List.append_assoc] at text
  exact ⟨_, others.map String.toList, last, by simp, text⟩

end LastLine

/-- What every rule line begins with. -/
theorem head?_payloadLines {rules : List String} {line : String}
    (listed : line ∈ payloadLines rules) : line.toList.head? = some 'r' := by
  have word : "rule:".toList = ['r', 'u', 'l', 'e', ':'] := by decide
  rw [payloadLines, (sortLines_perm _).mem_iff] at listed
  obtain ⟨rule, _, rfl⟩ := List.mem_map.mp listed
  simp [payloadLine_toList, word]

/-- What every item line begins with. -/
theorem head?_itemLines {items : List ConfigItem} {line : String}
    (listed : line ∈ itemLines items) : line.toList.head? = some 'i' := by
  have word : "item:".toList = ['i', 't', 'e', 'm', ':'] := by decide
  rw [itemLines, (sortLines_perm _).mem_iff] at listed
  obtain ⟨item, _, rfl⟩ := List.mem_map.mp listed
  simp [ConfigItem.canonicalLine, toList_itemLine, word]

theorem payloadLines_ne_nil {rules : List String} (nonempty : rules ≠ []) :
    payloadLines rules ≠ [] := by
  intro empty
  have lengths := (sortLines_perm (rules.zipIdx.map fun rule => payloadLine rule.2 rule.1)).length_eq
  rw [← payloadLines, empty, List.length_map, List.length_zipIdx] at lengths
  exact nonempty (List.length_eq_zero_iff.mp lengths.symm)

theorem itemLines_ne_nil {items : List ConfigItem} (nonempty : items ≠ []) :
    itemLines items ≠ [] := by
  intro empty
  have lengths := (sortLines_perm (items.map ConfigItem.canonicalLine)).length_eq
  rw [← itemLines, empty, List.length_map] at lengths
  exact nonempty (List.length_eq_zero_iff.mp lengths.symm)

theorem RuleBundle.exists_last_line (bundle : RuleBundle) :
    ∃ (front : List Char) (others : List (List Char)), ∃ last ∈ payloadLines bundle.rules,
      bundle.canonical.toList = front ++ '\n' :: terminated '\n' (others ++ [last.toList]) :=
  exists_last_payload (markOf "upgrade_type=" (by decide)) (by decide)
    (payloadLines_ne_nil bundle.nonempty)

theorem ConfigBundle.exists_last_line (bundle : ConfigBundle) :
    ∃ (front : List Char) (others : List (List Char)), ∃ last ∈ itemLines bundle.items,
      bundle.canonical.toList = front ++ '\n' :: terminated '\n' (others ++ [last.toList]) :=
  exists_last_payload (markOf "config_type=" (by decide)) (by decide)
    (itemLines_ne_nil bundle.nonempty)

/-- No validated configuration bundle has the signed bytes of a rule bundle, whatever
their free-form fields hold. -/
theorem canonicalRuleBytes_ne_canonicalConfigBytes (rule : RuleBundle) {now : Int}
    {document : Value} {draft : ConfigDraft} (read : readConfigDraft now document = .ok draft) :
    utf8 rule.canonical ≠ utf8 draft.bundle.canonical := by
  intro same
  obtain ⟨front, others, last, listed, text⟩ := rule.exists_last_line
  obtain ⟨front', others', last', listed', text'⟩ := draft.bundle.exists_last_line
  have valid : draft.bundle.Valid := (readConfigDraft_eq_ok.1 read).valid
  rw [utf8_injective same, text'] at text
  have lines := last_line_unique ((ConfigBundle.itemLines_payload valid).unbroken last' listed')
    ((payloadLines_payload rule.rules).unbroken last listed) text
  have first := head?_payloadLines listed
  rw [← lines, head?_itemLines listed'] at first
  exact absurd first (by decide)

/-- A rule bundle of the header's fields. -/
def ruleBundleSample (header : Header) : RuleBundle where
  header := { header with bundleType := 1 }
  rules := ["alert ip"]
  inline := rfl
  nonempty := by simp

/-- Two bundles that agree in every shared field. -/
theorem canonicalRuleBytes_ne_canonicalConfigBytes_sample :
    ∃ draft, readConfigDraft 1500 ConfigManager.documentSample = .ok draft ∧
      utf8 (ruleBundleSample draft.header).canonical ≠ utf8 draft.bundle.canonical := by
  obtain ⟨draft, read⟩ := ConfigManager.readConfigDraft_sample
  exact ⟨draft, read, canonicalRuleBytes_ne_canonicalConfigBytes _ read⟩

end Idsm.Managerd
