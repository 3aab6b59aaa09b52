import Idsm.Foundation.Execution
import Idsm.Android.RuleManager
import Idsm.Managerd.RuleAdmissionProperties
import Idsm.VsocMock.CanonicalProperties

/-! The daemon, the Android manager and the signer sign the same bytes for every rule
bundle: payload lines are ASCII, so the three sort orders agree on them. -/

set_option autoImplicit false

namespace Idsm.Android.RuleManager

open Idsm.Foundation
open Idsm.Managerd (Target base64Encode ruleNumber sortLines alphabetAt encodeGroups)

theorem ascii_base64Encode (data : List UInt8) : Ascii (base64Encode data) := by
  have digits : ∀ word, (alphabetAt word).toNat ≤ 0x7F := by
    intro word
    obtain ⟨symbol, encoded, -⟩ := Managerd.alphabetAt_spec word
    have single := congrArg List.length encoded
    rw [String.length_utf8EncodeChar] at single
    exact UInt32.le_iff_toNat_le.mp (Char.utf8Size_eq_one_iff.mp single)
  rw [Ascii, base64Encode, String.toList_ofList]
  fun_induction encodeGroups data with
  | case1 => simp
  | case2 a n => simp [digits]
  | case3 a b n => simp [digits]
  | case4 a b c rest n ih => simpa [digits] using ih

/-- No byte of a rule text shows in its payload line. -/
theorem ascii_payloadLine (index : Nat) (rule : String) :
    Ascii (Managerd.payloadLine index rule) := by
  have word : Ascii "rule:" := by
    rw [Ascii]
    decide
  have colon : Ascii ":" := by
    rw [Ascii]
    decide
  have number : Ascii (ruleNumber index) := by
    intro symbol member
    have bounds := digit_bounds (Managerd.isDigit_of_mem_ruleNumber member)
    omega
  exact ((word.append number).append colon).append (ascii_base64Encode _)

theorem ascii_lines (rules : List String) :
    ∀ line ∈ rules.zipIdx.map fun rule => Managerd.payloadLine rule.2 rule.1, Ascii line := by
  intro line member
  obtain ⟨rule, _, rfl⟩ := List.mem_map.mp member
  exact ascii_payloadLine rule.2 rule.1

/-- Bytes, UTF-16 units and code points sort the payload lines alike. -/
theorem payloadLines_orders (rules : List String) :
    (rules.zipIdx.map fun rule => Managerd.payloadLine rule.2 rule.1).insertionSort BytesLe =
        Managerd.payloadLines rules ∧
      payloadLines rules = Managerd.payloadLines rules ∧
      sortLines (VsocMock.rulePayloadLines rules) = Managerd.payloadLines rules :=
  ⟨insertionSort_bytesLe (ascii_lines rules), insertionSort_unitsLe (ascii_lines rules), rfl⟩

section Bytes

variable (seq : Int) (tenant version : String) (rollback : Bool) (target : Target)
  (issuedAt expiresAt upgradeType : Int) (lines : List String)

theorem canonicalBytes_eq :
    canonicalBytes seq tenant version rollback target.ecu target.nodeType target.vmodel issuedAt
        expiresAt upgradeType lines =
      utf8 (Managerd.canonicalRuleBytes seq tenant version rollback target.ecu target.nodeType
        target.vmodel issuedAt expiresAt upgradeType lines) := by
  have typeKey : "upgrade_type=" = "upgrade_type" ++ "=" := by decide
  simp only [canonicalBytes, Managerd.canonicalRuleBytes, Managerd.canonicalBytes, typeKey,
    String.append_assoc]

theorem signerBytes_eq :
    VsocMock.canonicalBytes seq tenant version rollback target.ecu target.nodeType target.vmodel
        upgradeType lines issuedAt expiresAt =
      utf8 (Managerd.canonicalRuleBytes seq tenant version rollback target.ecu target.nodeType
        target.vmodel issuedAt expiresAt upgradeType (sortLines lines)) := by
  have newline : "\n".toList = ['\n'] := by decide
  have equals : "=".toList = ['='] := by decide
  have typeKey : "upgrade_type=".toList = "upgrade_type".toList ++ ['='] := by decide
  rw [VsocMock.canonicalBytes, List.cons_append]
  refine congrArg utf8 (String.toList_inj.mp ?_)
  rw [VsocMock.toList_intercalate_lines, Managerd.canonicalRuleBytes, Managerd.canonicalBytes,
    Managerd.toList_foldl_lines]
  simp only [List.map_cons, List.cons_append, List.nil_append, terminated_cons,
    String.toList_append, newline, equals, typeKey, List.append_assoc]

end Bytes

/-- The three implementations agree, whatever the fields and however many the rules;
each sorts the lines in the order of its own strings. -/
theorem rule_bytes_agree (seq : Int) (tenant version : String) (rollback : Bool) (target : Target)
    (issuedAt expiresAt upgradeType : Int) (rules : List String) :
    utf8 (Managerd.canonicalRuleBytes seq tenant version rollback target.ecu target.nodeType
        target.vmodel issuedAt expiresAt upgradeType (Managerd.payloadLines rules)) =
      canonicalBytes seq tenant version rollback target.ecu target.nodeType target.vmodel issuedAt
        expiresAt upgradeType (payloadLines rules) ∧
    utf8 (Managerd.canonicalRuleBytes seq tenant version rollback target.ecu target.nodeType
        target.vmodel issuedAt expiresAt upgradeType (Managerd.payloadLines rules)) =
      VsocMock.canonicalBytes seq tenant version rollback target.ecu target.nodeType target.vmodel
        upgradeType (VsocMock.rulePayloadLines rules) issuedAt expiresAt ∧
    Managerd.payloadLines rules =
      (rules.zipIdx.map fun rule => Managerd.payloadLine rule.2 rule.1).insertionSort BytesLe := by
  obtain ⟨bytes, units, points⟩ := payloadLines_orders rules
  refine ⟨?_, ?_, bytes.symm⟩
  · rw [canonicalBytes_eq, units]
  · rw [signerBytes_eq, points]

end Idsm.Android.RuleManager
