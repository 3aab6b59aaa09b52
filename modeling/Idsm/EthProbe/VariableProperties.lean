import Idsm.EthProbe.AddressText

/-! Addresses of rules that are written with a variable, against its text in place. -/

set_option autoImplicit false

namespace Idsm.EthProbe

open Idsm.Foundation

section Negation

variable {rest : List UInt8}

/-- No number begins with an exclamation mark. -/
theorem scanInteger_mark (base : Nat) : scanInteger base (33 :: rest) = none := by
  have noDigit : isDigit base 33 = false := rfl
  have blank : Foundation.isSpace 33 = false := rfl
  rw [scanInteger, List.dropWhile_cons_of_neg (by simp [blank])]
  simp [scanSign, skipPrefix, noDigit]

theorem cString_mark : cString (33 :: rest) = 33 :: cString rest := rfl

theorem fields_mark {mark : UInt8} (other : mark ≠ 33) :
    ∃ piece pieces, fields mark (33 :: rest) = (33 :: piece) :: pieces := by
  obtain ⟨piece, pieces, split⟩ := List.exists_cons_of_ne_nil (List.splitOn_ne_nil mark rest)
  have shape : (33 :: rest).splitOn mark = (33 :: piece) :: pieces := by
    rw [List.splitOn_cons_eq_if_modifyHead, if_neg (by simpa using other.symm), split,
      List.modifyHead_cons]
  rw [fields, shape]
  split
  next last =>
    cases pieces with
    | nil => simp at last
    | cons second pieces => exact ⟨piece, (second :: pieces).dropLast, rfl⟩
  next => exact ⟨piece, pieces, rfl⟩

theorem parseGroups_mark : parseGroups (33 :: rest) = none := by
  obtain ⟨piece, pieces, shape⟩ := @fields_mark rest 58 (by decide)
  have unread : readGroup (33 :: piece) = none := by
    rw [readGroup, cString_mark, strtol, scanInteger_mark]
    split <;> rfl
  rw [parseGroups, shape, List.mapM_cons, unread]
  rfl

theorem parseIpv6Text_mark : parseIpv6Text (33 :: rest) = .rejected () := by
  rw [parseIpv6Text]
  by_cases colon : 58 ∉ 33 :: rest
  · rw [if_pos colon]
  · rw [if_neg colon]
    cases rest with
    | nil => exact absurd (by decide) colon
    | cons next rest =>
        rw [cutAtTwo, if_neg fun both => absurd both.1 (by decide)]
        cases cutAtTwo 58 (next :: rest) with
        | none =>
            dsimp only [Option.map_none]
            rw [parseGroups_mark]
        | some cut =>
            obtain ⟨before, behind⟩ := cut
            dsimp only [Option.map_some]
            rw [parseGroups_mark]
            split <;> rfl

theorem parseIpv4Text_mark : parseIpv4Text (33 :: rest) = none := by
  rw [parseIpv4Text, cString_mark, scanDotted, scanUnsigned, strtoul, scanInteger_mark]
  rfl

theorem parseCidr_mark : parseCidr (33 :: rest) = .rejected () := by
  have cut : cutAt 47 (33 :: rest) = (33 :: (cutAt 47 rest).1, (cutAt 47 rest).2) := by
    rw [cutAt, if_neg (by decide)]
  rw [parseCidr, cut]
  dsimp only
  split
  next => rfl
  next =>
    split
    next => rw [parseIpv6Text_mark]
    next => rw [parseIpv4Text_mark]

theorem parseNets_mark (negated : Bool) :
    parseNets negated (33 :: rest) = .rejected (.badAddress (33 :: rest)) := by
  rw [parseNets, if_neg (by simp), parseCidr_mark]

end Negation

section Substitution

def anyText : List UInt8 := [97, 110, 121]

theorem parseNets_any (negated : Bool) :
    parseNets negated anyText = .rejected (.badAddress anyText) := by
  have refused : parseCidr anyText = .rejected () := by decide
  rw [parseNets, if_neg (by decide), refused]

/-- The mark in front changes the negation and nothing else. -/
theorem parseNets_negated {tok : List UInt8} {matcher : IpMatcher}
    (parsed : parseNets false tok = .accepted matcher) :
    matcher.any = false ∧ matcher.negated = false ∧
      parseNets true tok = .accepted { matcher with negated := true } := by
  unfold parseNets at parsed ⊢
  by_cases brackets : tok.head? = some 91 ∧ tok.getLast? = some 93
  · rw [if_pos brackets] at parsed ⊢
    cases items : parseItems (fields 44 (slice tok 1 (tok.length - 2))) with
    | rejected err =>
        rw [items] at parsed
        cases parsed
    | outOfBounds =>
        rw [items] at parsed
        cases parsed
    | accepted cidrs =>
        rw [items] at parsed
        dsimp only at parsed ⊢
        by_cases none : cidrs = []
        · rw [if_pos none] at parsed
          cases parsed
        · rw [if_neg none] at parsed ⊢
          cases parsed
          exact ⟨rfl, rfl, rfl⟩
  · rw [if_neg brackets] at parsed ⊢
    cases one : parseCidr tok with
    | rejected err =>
        rw [one] at parsed
        cases parsed
    | outOfBounds =>
        rw [one] at parsed
        cases parsed
    | accepted cidr =>
        rw [one] at parsed
        cases parsed
        exact ⟨rfl, rfl, rfl⟩

theorem matches_negated {matcher : IpMatcher} (noAny : matcher.any = false)
    (plain : matcher.negated = false) (ip : List UInt8) (isV6 : Bool) :
    ({ matcher with negated := true } : IpMatcher).matches ip isV6 =
      !matcher.matches ip isV6 := by
  rw [IpMatcher.matches, IpMatcher.matches, noAny, plain]
  cases matcher.cidrs.any fun cidr => cidr.v6 == isV6 && cidr.contains ip <;> rfl

theorem parseIpMatcher_unmarked {vars : VarMap} {tok : List UInt8} (noAny : tok ≠ anyText)
    (noMark : tok.head? ≠ some 33) : parseIpMatcher vars tok = parseVariable vars false tok := by
  unfold parseIpMatcher
  split
  next same => exact absurd same noAny
  next =>
    split
    next => exact absurd rfl noMark
    next => rfl

theorem parseVariable_text {vars : VarMap} {negated : Bool} {tok : List UInt8}
    (noVariable : tok.head? ≠ some 36) :
    parseVariable vars negated tok = parseNets negated tok := by
  unfold parseVariable
  split
  next => exact absurd rfl noVariable
  next => rfl

/-- A variable means its text, and with a mark in front the complement. -/
def Substitutes (vars : VarMap) (name text : List UInt8) (matcher : IpMatcher) : Prop :=
  (∃ found, parseIpMatcher vars (36 :: name) = .accepted found ∧
    ∀ ip isV6, found.matches ip isV6 = matcher.matches ip isV6) ∧
  (text ≠ anyText → ∃ found, parseIpMatcher vars (33 :: 36 :: name) = .accepted found ∧
    ∀ ip isV6, found.matches ip isV6 = !matcher.matches ip isV6)

theorem substitutes_iff {vars : VarMap} {name text : List UInt8} {matcher : IpMatcher}
    (mapped : vars.lookup name = some text) (noVariable : text.head? ≠ some 36)
    (direct : parseIpMatcher vars text = .accepted matcher) :
    Substitutes vars name text matcher ↔ text ≠ anyText ∧ text.head? ≠ some 33 := by
  have plain : parseIpMatcher vars (36 :: name) = parseNets false text := by
    rw [parseIpMatcher_unmarked (by simp [anyText]) (by simp), parseVariable, mapped]
  have negated : parseIpMatcher vars (33 :: 36 :: name) = parseNets true text := by
    rw [parseIpMatcher, if_neg (by simp), parseVariable, mapped]
  rw [Substitutes, plain, negated]
  constructor
  · intro ⟨⟨found, parsed, _⟩, _⟩
    constructor
    · rintro rfl
      rw [parseNets_any] at parsed
      cases parsed
    · intro mark
      cases text with
      | nil => cases mark
      | cons first rest =>
          obtain rfl := Option.some.inj mark
          rw [parseNets_mark] at parsed
          cases parsed
  · intro ⟨noAny, noMark⟩
    have inPlace : parseIpMatcher vars text = parseNets false text := by
      rw [parseIpMatcher_unmarked noAny noMark, parseVariable_text noVariable]
    rw [inPlace] at direct
    obtain ⟨notAny, notNegated, marked⟩ := parseNets_negated direct
    exact ⟨⟨matcher, direct, fun _ _ => rfl⟩,
      fun _ => ⟨_, marked, matches_negated notAny notNegated⟩⟩

/-- `192.168.0.0/16`, and the same with a mark in front. -/
def homeNet : List UInt8 := [49, 57, 50, 46, 49, 54, 56, 46, 48, 46, 48, 47, 49, 54]

def homeCidr : Cidr := ⟨[192, 168] ++ List.replicate 14 0, 16, false⟩

theorem parseCidr_homeNet : parseCidr homeNet = .accepted homeCidr := by decide

theorem substitutes_sample :
    Substitutes [([72], homeNet)] [72] homeNet ⟨[homeCidr], false, false⟩ ↔
      homeNet ≠ anyText ∧ homeNet.head? ≠ some 33 :=
  substitutes_iff rfl (by decide) (by
    rw [parseIpMatcher_unmarked (by decide) (by decide), parseVariable_text (by decide),
      parseNets, if_neg (by decide), parseCidr_homeNet])

theorem negated_variable_refused :
    parseIpMatcher [([72], 33 :: homeNet)] (33 :: homeNet) =
        .accepted ⟨[homeCidr], false, true⟩ ∧
      ¬ Substitutes [([72], 33 :: homeNet)] [72] (33 :: homeNet) ⟨[homeCidr], false, true⟩ := by
  constructor
  · change parseVariable [([72], 33 :: homeNet)] true homeNet = _
    rw [parseVariable_text (by decide), parseNets, if_neg (by decide), parseCidr_homeNet]
  · intro ⟨⟨found, parsed, _⟩, _⟩
    change parseNets false (33 :: homeNet) = _ at parsed
    rw [parseNets_mark] at parsed
    cases parsed

end Substitution

end Idsm.EthProbe
