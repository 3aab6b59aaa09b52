import Idsm.Managerd.RuleManager
import Idsm.Managerd.SignedBundleProperties

/-! What an admitted rule bundle has passed, and when its canonical text stands
for that bundle alone. -/

set_option autoImplicit false

namespace Idsm.Managerd

open Idsm.Foundation
open Idsm.Json (Value)

/-- The document a draft was read from. -/
structure RuleDraft.ReadFrom (now : Int) (bundle : Value) (draft : RuleDraft) : Prop where
  fields : requireFields ruleFields bundle = .ok ()
  msgType : (bundle.field "msg_type").getString = .ok "rule_update"
  sigAlg : (bundle.field "sig_alg").getString = .ok "Ed25519"
  scalars : readScalars bundle "upgrade_type" = .ok draft.scalars
  items : bundle.member? "rules" = some (.array draft.items)
  target : readTarget (bundle.field "target") = .ok draft.target
  unexpired : now - kClockSkewToleranceSec ≤ draft.scalars.expiresAt
  issued : draft.scalars.issuedAt ≤ now + kClockSkewToleranceSec

theorem ruleItems_eq_ok {bundle : Value} {items : { items : List Value // items ≠ [] }} :
    ruleItems bundle = .ok items ↔ bundle.member? "rules" = some (.array items.val) := by
  obtain ⟨items, nonempty⟩ := items
  rw [ruleItems]
  split
  next item rest found =>
    rw [found]
    simp
  next absent =>
    constructor
    · intro impossible
      simp [reject] at impossible
    · intro found
      cases items with
      | nil => exact absurd rfl nonempty
      | cons item rest => exact absurd found (absent item rest)

theorem readRuleDraft_eq_ok {now : Int} {bundle : Value} {draft : RuleDraft} :
    readRuleDraft now bundle = .ok draft ↔ draft.ReadFrom now bundle := by
  simp only [readRuleDraft, bind_eq_ok]
  constructor
  · rintro ⟨⟨⟩, fields, ⟨⟩, msgType, ⟨⟩, sigAlg, scalars, scalarsRead, ⟨positive⟩, -, ⟨named⟩, -, -,
      -, ⟨inline⟩, -, items, itemsRead, target, targetRead, ⟨⟩, times, result⟩
    cases result
    have times := checkTimes_eq_ok.1 times
    exact ⟨fields, requireText_eq_ok.1 msgType, requireText_eq_ok.1 sigAlg,
      unguarded_eq_ok.1 scalarsRead, ruleItems_eq_ok.1 itemsRead, targetRead, times.1, times.2⟩
  · intro facts
    obtain ⟨scalars, target, items, positive, named, inline, nonempty⟩ := draft
    exact ⟨(), facts.fields, (), requireText_eq_ok.2 facts.msgType, (),
      requireText_eq_ok.2 facts.sigAlg, scalars, unguarded_eq_ok.2 facts.scalars,
      ⟨positive⟩, require_of positive, ⟨named⟩, require_of named, ⟨.inl inline⟩,
      require_of _, ⟨inline⟩, require_of inline, ⟨items, nonempty⟩,
      ruleItems_eq_ok.2 facts.items, target, facts.target, (),
      checkTimes_eq_ok.2 ⟨facts.unexpired, facts.issued⟩, rfl⟩

theorem readRules_eq_ok {draft : RuleDraft} {rules : { rules : List String // rules ≠ [] }} :
    readRules draft = .ok rules ↔ ruleTexts draft.items = .ok rules.val := by
  rw [readRules]
  split
  next error failed => simp [failed]
  next texts read => simp [read, Subtype.ext_iff]

/-- The draft an admitted bundle comes from, with what admission checked on it. -/
structure RuleBundle.DrawnFrom (manager : RuleManager) (crypto : Crypto) (maxSeq : Int)
    (draft : RuleDraft) (bundle : RuleBundle) : Prop where
  above : maxSeq < draft.scalars.seq
  rules : ruleTexts draft.items = .ok bundle.rules
  header : bundle.header = draft.header
  authentic : authenticate crypto manager.pubkeyB64 "rule" bundle.canonical draft.scalars = .ok ()

namespace RuleManager

variable {manager : RuleManager} {crypto : Crypto} {now maxSeq : Int}

theorem authorize_eq_ok {draft : RuleDraft} {bundle : RuleBundle} :
    manager.authorize crypto maxSeq draft = .ok bundle ↔
      bundle.DrawnFrom manager crypto maxSeq draft := by
  simp only [authorize, bind_eq_ok, unguarded_eq_ok]
  constructor
  · rintro ⟨⟨⟩, above, ⟨rules, nonempty⟩, read, ⟨⟩, authentic, result⟩
    cases result
    exact ⟨checkSeq_eq_ok.1 above, readRules_eq_ok.1 read, rfl, authentic⟩
  · rintro ⟨above, read, header, authentic⟩
    obtain ⟨_, rules, inline, nonempty⟩ := bundle
    subst header
    exact ⟨(), checkSeq_eq_ok.2 above, ⟨rules, nonempty⟩, readRules_eq_ok.2 read, (), authentic, rfl⟩

theorem accept_eq_ok {document : Value} {bundle : RuleBundle} :
    manager.accept crypto now maxSeq document = .ok bundle ↔
      ∃ draft : RuleDraft, draft.ReadFrom now document ∧
        bundle.DrawnFrom manager crypto maxSeq draft := by
  simp only [accept, bind_eq_ok, readRuleDraft_eq_ok, authorize_eq_ok]

end RuleManager

/-! The payload lines. -/

theorem payloadLine_toList (index : Nat) (rule : String) :
    (payloadLine index rule).toList =
      "rule:".toList ++ (ruleNumber index).toList ++ ':' :: (base64Encode (utf8 rule)).toList := by
  have colon : ":".toList = [':'] := by decide
  simp only [payloadLine, String.toList_append, colon, List.append_assoc, List.cons_append,
    List.nil_append]

theorem isDigit_of_mem_ruleNumber {index : Nat} {symbol : Char}
    (member : symbol ∈ (ruleNumber index).toList) : symbol.isDigit = true := by
  rw [ruleNumber, Nat.toString_eq_repr, Nat.toList_repr] at member
  exact Nat.isDigit_of_mem_toDigits (by decide) (by decide) member

theorem payloadLines_payload (rules : List String) : PayloadLines 'u' (payloadLines rules) := by
  have listed : ∀ line ∈ payloadLines rules, ∃ index rule, line = payloadLine index rule := by
    intro line member
    rw [payloadLines, (sortLines_perm _).mem_iff] at member
    obtain ⟨rule, _, rfl⟩ := List.mem_map.mp member
    exact ⟨rule.2, rule.1, rfl⟩
  constructor
  · intro line member
    obtain ⟨index, rule, rfl⟩ := listed line member
    rw [payloadLine_toList, List.mem_append, List.mem_append, List.mem_cons]
    rintro ((word | digits) | colon | encoded)
    · exact absurd word (by decide)
    · exact absurd (isDigit_of_mem_ruleNumber digits) (by decide)
    · exact absurd colon (by decide)
    · exact newline_notMem_base64Encode _ encoded
  · intro line member
    obtain ⟨index, rule, rfl⟩ := listed line member
    have word : "rule:".toList = ['r', 'u', 'l', 'e', ':'] := by decide
    simp [payloadLine_toList, word]

theorem payloadLine_injective {index index' : Nat} {rule rule' : String}
    (same : payloadLine index rule = payloadLine index' rule') : index = index' ∧ rule = rule' := by
  have colonless : ∀ index, ':' ∉ (ruleNumber index).toList := fun index member =>
    absurd (isDigit_of_mem_ruleNumber member) (by decide)
  have texts := congrArg String.toList same
  rw [payloadLine_toList, payloadLine_toList, List.append_assoc, List.append_assoc,
    List.append_cancel_left_eq] at texts
  rcases first_mark (colonless index) texts with ⟨numbers, encodings⟩ | ⟨between, later, _⟩
  · have equal : toString (10000 + index) = toString (10000 + index') :=
      String.toList_inj.mp numbers
    rw [Nat.toString_eq_repr, Nat.toString_eq_repr, Nat.repr_inj] at equal
    exact ⟨by omega, utf8_injective (base64Encode_injective (String.toList_inj.mp encodings))⟩
  · exact absurd (later ▸ by simp) (colonless index')

/-- The sorted lines still tell every rule and its place. -/
theorem payloadLines_injective {rules rules' : List String}
    (same : payloadLines rules = payloadLines rules') : rules = rules' := by
  have permuted : ((rules.zipIdx.map fun rule => payloadLine rule.2 rule.1)).Perm
      (rules'.zipIdx.map fun rule => payloadLine rule.2 rule.1) :=
    (List.perm_insertionSort (· ≤ ·) _).symm.trans
      ((List.Perm.of_eq same).trans (List.perm_insertionSort (· ≤ ·) _))
  have injective : Function.Injective fun rule : String × Nat => payloadLine rule.2 rule.1 := by
    rintro ⟨rule, index⟩ ⟨rule', index'⟩ equal
    obtain ⟨rfl, rfl⟩ := payloadLine_injective equal
    rfl
  have places := (List.map_perm_map_iff injective).mp permuted
  apply List.ext_getElem?
  intro index
  apply Option.ext
  intro rule
  rw [← List.mk_mem_zipIdx_iff_getElem?, ← List.mk_mem_zipIdx_iff_getElem?, places.mem_iff]

/-! Sample bundles for the concrete runs. -/

def ruleManagerSample : RuleManager where
  reloadCmd := ""
  pubkeyB64 := "AAAA"
  seedDir := none

/-- A complete rule bundle document. -/
def ruleDocument (seq : UInt64) (version ecu nodeType : String) : Value :=
  .object
    [("msg_type", .string "rule_update"), ("manufacturer", .string "caic"),
      ("seq", .unsigned seq), ("version", .string version), ("rollback", .boolean false),
      ("target", .object [("ecu", .string ecu), ("nodeType", .string nodeType),
        ("vmodel", .string "all")]),
      ("upgrade_type", .unsigned 1), ("rules", .array [.string "alert ip"]),
      ("issued_at", .unsigned 1000), ("expires_at", .unsigned 2000),
      ("sig_alg", .string "Ed25519"), ("pubkey_id", .string "0000000000000000"),
      ("signature", .string "AAAA")]

/-- The text of a sample document, in short pieces. -/
def ruleText (sample : UInt64 × String) : List UInt8 :=
  ["\x7b\"msg_type\":\"rule_update\",", "\"manufacturer\":\"caic\",\"seq\":",
    toString sample.1.toNat, ",\"version\":\"", sample.2, "\",\"rollback\":false,",
    "\"target\":\x7b\"ecu\":\"all\",", "\"nodeType\":\"all\",", "\"vmodel\":\"all\"\x7d,",
    "\"upgrade_type\":1,", "\"rules\":[\"alert ip\"],", "\"issued_at\":1000,",
    "\"expires_at\":2000,", "\"sig_alg\":\"Ed25519\",",
    "\"pubkey_id\":\"0000000000000000\",", "\"signature\":\"AAAA\"\x7d"].flatMap utf8

/-- The parser on the texts of the sample documents. -/
def sampleParse (samples : List (UInt64 × String)) (text : List UInt8) :
    Except (List UInt8) Value :=
  match samples.find? fun sample => ruleText sample == text with
  | some sample => .ok (ruleDocument sample.1 sample.2 "all" "all")
  | none => .error (utf8 "parse error")

theorem sampleParse_self (sample : UInt64 × String) :
    sampleParse [sample] (ruleText sample) = .ok (ruleDocument sample.1 sample.2 "all" "all") := by
  simp [sampleParse]

end Idsm.Managerd
