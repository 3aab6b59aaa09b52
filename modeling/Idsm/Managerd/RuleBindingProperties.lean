import Idsm.Managerd.RuleAdmissionProperties

/-! What a signature over a rule bundle authorizes: the canonical text stands for
one bundle exactly when the free-form fields are unambiguous. -/

set_option autoImplicit false

namespace Idsm.Managerd

open Idsm.Foundation
open Idsm.Json (Value)

namespace RuleBundle

/-- The bundle with other free-form fields. -/
def withFields (bundle : RuleBundle) (tenant version : String) (rollback : Bool) (target : Target)
    (named : validVersionName version = true) : RuleBundle where
  header := { bundle.header with tenant, version, rollback, target, named }
  rules := bundle.rules
  inline := bundle.inline
  nonempty := bundle.nonempty

theorem toList_canonical (bundle : RuleBundle) :
    bundle.canonical.toList =
      "seq=".toList ++ (toString bundle.header.seq).toList ++ tenantMark.text ++
        (middleText bundle.header.tenant bundle.header.version bundle.header.rollback
            bundle.header.target ++ issuedMark.text ++
          (toString bundle.header.issuedAt).toList ++ expiresMark.text ++
          (toString bundle.header.expiresAt).toList ++
          (markOf "upgrade_type=" (by decide)).text ++
          terminated '\n' ((toString bundle.header.bundleType).toList ::
            (payloadLines bundle.rules).map String.toList)) :=
  toList_canonicalBytes "upgrade_type" (markOf "upgrade_type=" (by decide)) (by decide) _ _ _ _ _ _
    _ _ _

theorem canonical_withFields (bundle : RuleBundle) {tenant version : String} {rollback : Bool}
    {target : Target} (named : validVersionName version = true)
    (same : middleText tenant version rollback target =
      middleText bundle.header.tenant bundle.header.version bundle.header.rollback
        bundle.header.target) :
    (bundle.withFields tenant version rollback target named).canonical = bundle.canonical := by
  apply String.toList_inj.mp
  rw [toList_canonical, toList_canonical, ← same]
  rfl

/-- Bundles with one canonical text agree on all but the free-form fields, and on
the text these make up. -/
theorem parts_of_canonical {bundle bundle' : RuleBundle}
    (same : bundle.canonical = bundle'.canonical) :
    (bundle.header.seq = bundle'.header.seq ∧ bundle.header.issuedAt = bundle'.header.issuedAt ∧
      bundle.header.expiresAt = bundle'.header.expiresAt ∧
      bundle.header.bundleType = bundle'.header.bundleType ∧ bundle.rules = bundle'.rules) ∧
    middleText bundle.header.tenant bundle.header.version bundle.header.rollback
        bundle.header.target =
      middleText bundle'.header.tenant bundle'.header.version bundle'.header.rollback
        bundle'.header.target := by
  obtain ⟨⟨seqs, issues, expiries, types, lines⟩, middles⟩ :=
    canonicalBytes_parts (markOf "upgrade_type=" (by decide)) 'u' "pgrade_type=".toList (by decide)
      (by decide) (by decide) (payloadLines_payload bundle.rules) (payloadLines_payload bundle'.rules) same
  exact ⟨⟨seqs, issues, expiries, types, payloadLines_injective lines⟩, middles⟩

theorem eq_of_canonical {bundle bundle' : RuleBundle}
    (clear : Unambiguous bundle.header.tenant bundle.header.target)
    (same : bundle.canonical = bundle'.canonical) : bundle = bundle' := by
  obtain ⟨⟨seqs, issues, expiries, types, rules⟩, middles⟩ := parts_of_canonical same
  obtain ⟨tenants, versions, rollbacks, targets⟩ :=
    middleText_injective clear bundle.header.named bundle'.header.named middles
  obtain ⟨⟨_, _, _, _, _, _, _, _, _, _⟩, _, _, _⟩ := bundle
  obtain ⟨⟨_, _, _, _, _, _, _, _, _, _⟩, _, _, _⟩ := bundle'
  simp_all only

end RuleBundle

/-- The document with its free-form fields written again at its end. -/
def rewritten (document : Value) (tenant version : String) (rollback : Bool) (target : Target) :
    Value :=
  match document with
  | .object members => .object (members ++
      [("manufacturer", .string tenant), ("version", .string version),
        ("rollback", .boolean rollback),
        ("target", .object [("ecu", .string target.ecu), ("nodeType", .string target.nodeType),
          ("vmodel", .string target.vmodel)])])
  | other => other

section Rewritten

variable {members : List (String × Value)} {tenant version : String} {rollback : Bool}
  {target : Target}

private theorem member?_rewritten (key : String) :
    (rewritten (.object members) tenant version rollback target).member? key =
      if key = "manufacturer" then some (.string tenant)
      else if key = "version" then some (.string version)
      else if key = "rollback" then some (.boolean rollback)
      else if key = "target" then some (.object [("ecu", .string target.ecu),
        ("nodeType", .string target.nodeType), ("vmodel", .string target.vmodel)])
      else (Value.object members).member? key := by
  simp only [rewritten, Value.member?, Json.lookup_append, Json.lookup_cons, Json.lookup_nil,
    Option.none_or]
  by_cases manufacturer : key = "manufacturer"
  · subst manufacturer
    simp
  by_cases isVersion : key = "version"
  · subst isVersion
    simp
  by_cases isRollback : key = "rollback"
  · subst isRollback
    simp
  by_cases isTarget : key = "target"
  · subst isTarget
    simp
  simp [manufacturer, isVersion, isRollback, isTarget, Ne.symm manufacturer, Ne.symm isVersion,
    Ne.symm isRollback, Ne.symm isTarget]

private theorem field_rewritten {key : String}
    (kept : key ∉ ["manufacturer", "version", "rollback", "target"]) :
    (rewritten (.object members) tenant version rollback target).field key =
      (Value.object members).field key := by
  simp only [List.mem_cons, List.not_mem_nil, or_false, not_or] at kept
  rw [Value.field, member?_rewritten, if_neg kept.1, if_neg kept.2.1, if_neg kept.2.2.1,
    if_neg kept.2.2.2, Value.field]

private theorem contains_rewritten {key : String}
    (contained : (Value.object members).contains key = true) :
    (rewritten (.object members) tenant version rollback target).contains key = true := by
  rw [Value.contains, member?_rewritten]
  split_ifs
  · rfl
  · rfl
  · rfl
  · rfl
  · exact contained

/-- A document rewritten to fields with the same text is admitted like the
original, on the original's signature. -/
theorem accept_rewritten {manager : RuleManager} {crypto : Crypto} {now maxSeq : Int}
    {document : Value} {bundle : RuleBundle} (named : validVersionName version = true)
    (admitted : manager.accept crypto now maxSeq document = .ok bundle)
    (same : middleText tenant version rollback target =
      middleText bundle.header.tenant bundle.header.version bundle.header.rollback
        bundle.header.target) :
    manager.accept crypto now maxSeq (rewritten document tenant version rollback target) =
      .ok (bundle.withFields tenant version rollback target named) := by
  obtain ⟨draft, read, drawn⟩ := RuleManager.accept_eq_ok.1 admitted
  obtain ⟨members, rfl⟩ : ∃ members, document = .object members := by
    cases document with
    | object members => exact ⟨members, rfl⟩
    | _ => exact absurd read.items (by simp [Value.member?])
  have scalars := readScalars_eq_ok.1 read.scalars
  let scalars' : Scalars := { draft.scalars with tenant, version, rollback }
  let draft' : RuleDraft :=
    { draft with scalars := scalars', target, named, positive := draft.positive, inline := draft.inline }
  refine RuleManager.accept_eq_ok.2 ⟨draft', ?_, ?_⟩
  · constructor
    · exact requireFields_eq_ok.2 fun key member =>
        contains_rewritten (requireFields_eq_ok.1 read.fields key member)
    · rw [field_rewritten (by decide)]
      exact read.msgType
    · rw [field_rewritten (by decide)]
      exact read.sigAlg
    · refine readScalars_eq_ok.2 ⟨?_, ?_, ?_, ?_, ?_, ?_, ?_, ?_, ?_⟩
      · rw [field_rewritten (by decide)]
        exact scalars.seq
      · rw [Value.field, member?_rewritten]
        rfl
      · rw [Value.field, member?_rewritten]
        rfl
      · rw [field_rewritten (by decide)]
        exact scalars.bundleType
      · rw [field_rewritten (by decide)]
        exact scalars.issuedAt
      · rw [field_rewritten (by decide)]
        exact scalars.expiresAt
      · rw [Value.field, member?_rewritten]
        rfl
      · rw [field_rewritten (by decide)]
        exact scalars.pubkeyId
      · rw [field_rewritten (by decide)]
        exact scalars.signature
    · rw [member?_rewritten]
      exact read.items
    · rw [Value.field, member?_rewritten]
      simp only [String.reduceEq, if_false, if_true, Option.getD_some, readTarget_eq_ok,
        Value.member?, Json.lookup_cons, Json.lookup_nil]
      exact ⟨rfl, rfl, rfl⟩
    · exact read.unexpired
    · exact read.issued
  · refine ⟨drawn.above, drawn.rules, ?_, ?_⟩
    · simp only [RuleBundle.withFields, drawn.header]
      rfl
    · rw [bundle.canonical_withFields named same]
      exact drawn.authentic

end Rewritten

/-- A signature over an admitted bundle authorizes no other bundle exactly when
the free-form fields of the bundle are unambiguous. -/
theorem canonicalRuleBytes_binds_iff {manager : RuleManager} {crypto : Crypto}
    {now maxSeq : Int} {document : Value} {bundle : RuleBundle}
    (admitted : manager.accept crypto now maxSeq document = .ok bundle) :
    (∀ now' maxSeq' document' bundle',
      manager.accept crypto now' maxSeq' document' = .ok bundle' →
      bundle'.canonical = bundle.canonical → bundle' = bundle) ↔
    Unambiguous bundle.header.tenant bundle.header.target := by
  constructor
  · intro bound
    by_contra ambiguous
    obtain ⟨tenant, version, rollback, target, named, same, different⟩ :=
      exists_other_middle bundle.header.named ambiguous
    have equal := bound now maxSeq _ _ (accept_rewritten named admitted same)
      (bundle.canonical_withFields named same)
    apply different
    rw [← equal]
    exact ⟨rfl, rfl⟩
  · intro clear _ _ _ bundle' _ same
    exact (RuleBundle.eq_of_canonical clear same.symm).symm

theorem canonicalRuleBytes_binds_sample :
    ∃ bundle, ruleManagerSample.accept acceptingCrypto 1500 0 (ruleDocument 1 "v1" "all" "all") =
        .ok bundle ∧
      ((∀ now' maxSeq' document' bundle',
        ruleManagerSample.accept acceptingCrypto now' maxSeq' document' = .ok bundle' →
        bundle'.canonical = bundle.canonical → bundle' = bundle) ↔
      Unambiguous bundle.header.tenant bundle.header.target) := by
  have accepted : (ruleManagerSample.accept acceptingCrypto 1500 0
      (ruleDocument 1 "v1" "all" "all")).isOk = true := by decide
  cases admitted : ruleManagerSample.accept acceptingCrypto 1500 0
      (ruleDocument 1 "v1" "all" "all") with
  | error stop =>
      rw [admitted] at accepted
      cases accepted
  | ok bundle => exact ⟨bundle, rfl, canonicalRuleBytes_binds_iff admitted⟩

private def collide : Checked RuleBundle → Checked RuleBundle → Bool
  | .ok bundle, .ok bundle' =>
      decide (bundle.canonical = bundle'.canonical) &&
        decide (bundle.header.target ≠ bundle'.header.target)
  | _, _ => false

/-- A line break in the node type moves a piece of the text between two fields. -/
theorem canonicalRuleBytes_collision :
    ∃ bundle bundle',
      ruleManagerSample.accept acceptingCrypto 1500 0
          (ruleDocument 1 "v1" "all\ntarget_node=all" "all") = .ok bundle ∧
        ruleManagerSample.accept acceptingCrypto 1500 0
          (ruleDocument 1 "v1" "all" "all\ntarget_node=all") = .ok bundle' ∧
        bundle.canonical = bundle'.canonical ∧ bundle.header.target ≠ bundle'.header.target := by
  have outcome :
      collide (ruleManagerSample.accept acceptingCrypto 1500 0
          (ruleDocument 1 "v1" "all\ntarget_node=all" "all"))
        (ruleManagerSample.accept acceptingCrypto 1500 0
          (ruleDocument 1 "v1" "all" "all\ntarget_node=all")) = true := by
    decide +kernel
  unfold collide at outcome
  split at outcome
  next bundle bundle' first second =>
    simp only [Bool.and_eq_true, decide_eq_true_eq] at outcome
    exact ⟨bundle, bundle', first, second, outcome⟩
  next => cases outcome

end Idsm.Managerd
