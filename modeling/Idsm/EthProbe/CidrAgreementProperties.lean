import Idsm.EthProbe.AddressTextProperties

/-! Networks as texts: where the parsers of `rules.cpp` and `geoip.cpp` make the same of a line,
and what stands for a prefix. -/

set_option autoImplicit false

namespace Idsm.EthProbe

open Idsm.Foundation

section Stores

variable {addr bytes : List UInt8} {idx : UInt64} {head tail : List UInt16}
  {reading : AddressReading}

theorem storeAt_inside (fits : idx.toNat + bytes.length ≤ addr.length)
    (bounded : addr.length < 2 ^ 64) :
    ∃ stored, storeAt addr idx bytes = some stored ∧ stored.length = addr.length := by
  have split : addr = addr.take idx.toNat ++ ((addr.drop idx.toNat).take bytes.length ++
      (addr.drop idx.toNat).drop bytes.length) := by
    rw [List.take_append_drop, List.take_append_drop]
  have front : idx.toNat = (addr.take idx.toNat).length := by
    rw [List.length_take]
    omega
  have inner : ((addr.drop idx.toNat).take bytes.length).length = bytes.length := by
    rw [List.length_take, List.length_drop]
    omega
  have stored := @storeAt_within (addr.take idx.toNat) ((addr.drop idx.toNat).take bytes.length)
    ((addr.drop idx.toNat).drop bytes.length) bytes idx front inner (by omega)
  rw [← split] at stored
  refine ⟨_, stored, ?_⟩
  simp only [List.length_append, List.length_take, List.length_drop]
  omega

theorem storeAt_outside (nonempty : bytes ≠ []) (long : addr.length < idx.toNat + bytes.length)
    (bounded : addr.length < 2 ^ 64) : storeAt addr idx bytes = none := by
  induction bytes generalizing addr idx with
  | nil => exact absurd rfl nonempty
  | cons byte bytes ih =>
      rw [storeAt]
      by_cases inside : idx.toNat < addr.length
      · have next : (idx + 1).toNat = idx.toNat + 1 := by
          rw [UInt64.toNat_add]
          exact Nat.mod_eq_of_lt (Nat.lt_of_le_of_lt inside bounded)
        rw [List.length_cons] at long
        rw [if_pos inside]
        apply ih
        · apply List.ne_nil_of_length_pos
          omega
        · rw [next, List.length_set]
          omega
        · rwa [List.length_set]
      · rw [if_neg inside]

/-- Eight groups fit on each side. -/
theorem storeGroups_inside :
    storeGroups head tail ≠ .outOfBounds ↔ head.length ≤ 8 ∧ tail.length ≤ 8 := by
  have front := length_flatMap_be16 head
  have back := length_flatMap_be16 tail
  unfold storeGroups
  by_cases short : head.length ≤ 8
  · obtain ⟨addr, stored, length⟩ :=
      @storeAt_inside (List.replicate 16 0) (head.flatMap be16) 0
        (by rw [front, List.length_replicate]; change 0 + _ ≤ _; omega)
        (by rw [List.length_replicate]; decide)
    rw [List.length_replicate] at length
    rw [stored]
    dsimp only
    by_cases few : tail.length ≤ 8
    · have start : (16 - UInt64.ofNat tail.length * 2).toNat = 16 - 2 * tail.length :=
        tailStart (by omega)
      obtain ⟨full, storedTail, _⟩ :=
        @storeAt_inside addr (tail.flatMap be16) (16 - UInt64.ofNat tail.length * 2)
          (by rw [start, back, length]; omega) (by rw [length]; decide)
      rw [storedTail]
      exact iff_of_true nofun ⟨short, few⟩
    · rw [storeAt_outside (List.ne_nil_of_length_pos (by omega)) (by rw [back, length]; omega)
        (by rw [length]; decide)]
      exact iff_of_false (fun same => same rfl) fun both => few both.2
  · rw [storeAt_outside (List.ne_nil_of_length_pos (by omega))
      (by rw [front, List.length_replicate]; omega) (by rw [List.length_replicate]; decide)]
    exact iff_of_false (fun same => same rfl) fun both => short both.1

theorem AddressReading.stored_inside : reading.stored ≠ .outOfBounds ↔
    reading.head.length ≤ 8 ∧ reading.behind.length ≤ 8 := by
  rw [AddressReading.stored, storeGroups_inside, List.length_map, List.length_map]

end Stores

/-- Both reject, or both accept one family, prefix and address; the bytes behind an IPv4 address
do not count. -/
inductive SameNetwork : Parsed Unit Cidr → Parsed Unit Cidr → Prop where
  | rejected : SameNetwork (.rejected ()) (.rejected ())
  | accepted {first second : Cidr} (family : first.v6 = second.v6)
      (prefixes : first.prefixLen = second.prefixLen)
      (bytes : first.addr.take (if first.v6 then 16 else 4) =
        second.addr.take (if first.v6 then 16 else 4)) :
      SameNetwork (.accepted first) (.accepted second)

/-- Where a slash stands in the line, the text behind it is the prefix in decimal digits. -/
def SpellsPrefix (behind : Option (List UInt8)) (cidr : Cidr) : Prop :=
  ∀ text, behind = some text → text ≠ [] ∧ (∀ digit ∈ text, isDigit 10 digit = true) ∧
    ofDigits 10 text = cidr.prefixLen ∧ cidr.prefixLen ≤ (addressBits cidr.v6).toNat

/-- The parsers agree on the line, and neither accepts a text for a prefix that is none. -/
structure CidrParsersAgree (line : List UInt8) : Prop where
  same : SameNetwork (parseCidr line) (parseAddrCidr line)
  rules : ∀ cidr, parseCidr line = .accepted cidr → SpellsPrefix (cutAt 47 line).2 cidr
  geoip : ∀ cidr, parseAddrCidr line = .accepted cidr → SpellsPrefix (cutAt 47 line).2 cidr

/-- The text behind the slash is a number in digits that is no more than the bits. -/
def PlainPrefix (bits : Nat) (behind : Option (List UInt8)) : Prop :=
  ∀ text, behind = some text → text ≠ [] ∧ (∀ digit ∈ text, isDigit 10 digit = true) ∧
    ofDigits 10 text ≤ bits

/-- Where the prefix is read as a number: in front of it no more than eight groups stand on
each side of two colons, and if the number that is kept of it is in range, then either both
parsers take the address or none does, and the text of the prefix is plain. -/
structure CarefulLine (line : List UInt8) (plen : UInt32) : Prop where
  ipv4 : 58 ∉ (cutAt 47 line).1 → parseIpv4Text (cutAt 47 line).1 ≠ none →
    effectivePrefix false plen ≤ addressBits false → PlainPrefix 32 (cutAt 47 line).2
  sides : ∀ reading : AddressReading, reading.text = (cutAt 47 line).1 →
    RulesReading reading ∨ PartsReading reading →
      reading.head.length ≤ 8 ∧ reading.behind.length ≤ 8
  ipv6 : ∀ reading : AddressReading, reading.text = (cutAt 47 line).1 →
    RulesReading reading ∨ PartsReading reading →
      effectivePrefix true plen ≤ addressBits true →
        RulesReading reading ∧ PartsReading reading ∧ PlainPrefix 128 (cutAt 47 line).2

section Prefixes

variable {behind : Option (List UInt8)} {plen : UInt32} {v6 : Bool} {addr text : List UInt8}

/-- Digits in range are read as their number. -/
theorem readPrefix_of_plain (nonempty : text ≠ [])
    (plain : ∀ digit ∈ text, isDigit 10 digit = true)
    (within : ofDigits 10 text ≤ (addressBits v6).toNat) :
    readPrefix (some text) = some (UInt32.ofNat (ofDigits 10 text)) := by
  have small : (addressBits v6).toNat ≤ 128 := by
    cases v6 with
    | true => exact Nat.le_refl _
    | false => decide
  have whole := cString_of_digits plain
  rw [readPrefix, parseU32, if_neg nonempty, whole, strtoul, scanInteger_of_digits nonempty plain]
  have fits : ¬ 2 ^ 64 ≤ ofDigits 10 text := by omega
  dsimp only [Option.map_some]
  rw [if_neg fits, if_neg Bool.false_ne_true]
  exact congrArg some (UInt64.toUInt32_ofNat' _)

theorem spellsPrefix_iff (read : readPrefix behind = some plen)
    (within : effectivePrefix v6 plen ≤ addressBits v6) :
    SpellsPrefix behind ⟨addr, (effectivePrefix v6 plen).toNat, v6⟩ ↔
      PlainPrefix (addressBits v6).toNat behind := by
  cases behind with
  | none => exact iff_of_true nofun nofun
  | some text =>
      constructor
      · intro spells other same
        obtain rfl := Option.some.inj same
        obtain ⟨nonempty, plain, value, inside⟩ := spells text rfl
        exact ⟨nonempty, plain, value ▸ inside⟩
      · intro plainly other same
        obtain rfl := Option.some.inj same
        obtain ⟨nonempty, plain, inside⟩ := plainly text rfl
        rw [readPrefix_of_plain nonempty plain inside] at read
        obtain rfl := Option.some.inj read
        have small : (addressBits v6).toNat ≤ 128 := by
          cases v6 with
          | true => exact Nat.le_refl _
          | false => decide
        have number : (UInt32.ofNat (ofDigits 10 text)).toNat = ofDigits 10 text :=
          UInt32.toNat_ofNat_of_lt' (Nat.lt_of_le_of_lt (Nat.le_trans inside small) (by decide))
        have other : UInt32.ofNat (ofDigits 10 text) ≠ noPrefix := by
          intro same
          rw [same] at number
          have large : noPrefix.toNat = 4294967295 := rfl
          omega
        have kept : effectivePrefix v6 (UInt32.ofNat (ofDigits 10 text)) =
            UInt32.ofNat (ofDigits 10 text) := if_neg other
        dsimp only
        rw [kept, number]
        exact ⟨nonempty, plain, rfl, inside⟩

end Prefixes

section Addresses

variable {parse : List UInt8 → Parsed Unit (List UInt8)} {a addr : List UInt8} {plen : UInt32}
  {behind : Option (List UInt8)} {first second : Parsed Unit Cidr} {reading : AddressReading}

theorem same_self (inside : first ≠ .outOfBounds) : SameNetwork first first := by
  cases first with
  | rejected err => exact .rejected
  | outOfBounds => exact absurd rfl inside
  | accepted cidr => exact .accepted rfl rfl rfl

theorem SameNetwork.inside (same : SameNetwork first second) : first ≠ .outOfBounds := by
  cases same with
  | rejected => nofun
  | accepted => nofun

theorem SameNetwork.of_rejected (same : SameNetwork first (.rejected ())) :
    first = .rejected () := by
  cases same with
  | rejected => rfl

theorem SameNetwork.symm (same : SameNetwork first second) : SameNetwork second first := by
  cases same with
  | rejected => exact .rejected
  | accepted family prefixes bytes =>
      exact .accepted family.symm prefixes.symm (family ▸ bytes.symm)

theorem withPrefix_rejected (unread : parse a = .rejected ()) (colon : 58 ∈ a) :
    withPrefix parse a plen = .rejected () := by
  rw [withPrefix, if_pos colon, unread]

theorem withPrefix_accepted (read : parse a = .accepted addr) (colon : 58 ∈ a) :
    withPrefix parse a plen = if addressBits true < effectivePrefix true plen then .rejected ()
      else .accepted ⟨addr, (effectivePrefix true plen).toNat, true⟩ := by
  rw [withPrefix, if_pos colon, read]
  exact checkPrefix_eq

theorem stored_of_sides (sides : reading.head.length ≤ 8 ∧ reading.behind.length ≤ 8) :
    ∃ addr, reading.stored = .accepted addr := by
  have inside := AddressReading.stored_inside.2 sides
  cases result : reading.stored with
  | rejected err => exact absurd result storeGroups_ne_rejected
  | outOfBounds => exact absurd result inside
  | accepted addr => exact ⟨addr, rfl⟩

/-- A parser takes a text that it has a reading of, and stores the groups of the reading. -/
theorem parseIpv6Text_cases : (∃ reading : AddressReading, reading.text = a ∧ RulesReading reading ∧
      parseIpv6Text a = reading.stored) ∨
    parseIpv6Text a = .rejected () ∧ ∀ reading : AddressReading, reading.text = a →
      ¬ RulesReading reading := by
  by_cases unread : parseIpv6Text a = .rejected ()
  · refine .inr ⟨unread, ?_⟩
    rintro reading rfl taken
    exact storeGroups_ne_rejected ((parseIpv6Text_text taken).symm.trans unread)
  · obtain ⟨reading, taken, rfl⟩ := reading_of_parseIpv6Text unread
    exact .inl ⟨reading, rfl, taken, parseIpv6Text_text taken⟩

theorem parseParts_cases : (∃ reading : AddressReading, reading.text = a ∧ PartsReading reading ∧
      parseParts a = reading.stored) ∨
    parseParts a = .rejected () ∧ ∀ reading : AddressReading, reading.text = a →
      ¬ PartsReading reading := by
  by_cases unread : parseParts a = .rejected ()
  · refine .inr ⟨unread, ?_⟩
    rintro reading rfl taken
    exact storeGroups_ne_rejected ((parseParts_text taken).symm.trans unread)
  · obtain ⟨reading, taken, rfl⟩ := reading_of_parseParts unread
    exact .inl ⟨reading, rfl, taken, parseParts_text taken⟩

/-- A result that only one parser accepts agrees with none exactly where its prefix is out of
range. -/
theorem one_sided (colon : 58 ∈ a) (read : parse a = reading.stored) :
    SameNetwork (withPrefix parse a plen) (.rejected ()) ↔
      (reading.head.length ≤ 8 ∧ reading.behind.length ≤ 8) ∧
        ¬ effectivePrefix true plen ≤ addressBits true := by
  constructor
  · intro same
    have sides : reading.head.length ≤ 8 ∧ reading.behind.length ≤ 8 := by
      apply AddressReading.stored_inside.1
      intro outside
      exact same.inside (withPrefix_outOfBounds.2 ⟨colon, read.trans outside⟩)
    refine ⟨sides, fun within => ?_⟩
    obtain ⟨addr, stored⟩ := stored_of_sides sides
    have rejected := same.of_rejected
    rw [withPrefix_accepted (read.trans stored) colon, if_neg (UInt32.not_lt.mpr within)] at rejected
    cases rejected
  · rintro ⟨sides, beyond⟩
    obtain ⟨addr, stored⟩ := stored_of_sides sides
    rw [withPrefix_accepted (read.trans stored) colon, if_pos (UInt32.not_le.mp beyond)]
    exact .rejected

end Addresses

section Lines

variable {line : List UInt8} {plen : UInt32}

theorem agree_ipv4 (read : readPrefix (cutAt 47 line).2 = some plen)
    (noColon : 58 ∉ (cutAt 47 line).1) : CidrParsersAgree line ↔ CarefulLine line plen := by
  have rules : parseCidr line = withPrefix parseIpv6Text (cutAt 47 line).1 plen := by
    rw [parseCidr_eq, read]
  have geoip : parseAddrCidr line = withPrefix parseIpv6Text (cutAt 47 line).1 plen := by
    rw [parseAddrCidr_eq, read]
    exact (if_neg noColon).trans (if_neg noColon).symm
  have noReading : ∀ reading : AddressReading, reading.text = (cutAt 47 line).1 →
      ¬ (RulesReading reading ∨ PartsReading reading) := by
    rintro reading whole taken
    apply noColon
    rw [← whole]
    cases taken with
    | inl taken => exact AddressReading.colon_mem taken.full
    | inr taken => exact AddressReading.colon_mem taken.full
  have inside : withPrefix parseIpv6Text (cutAt 47 line).1 plen ≠ .outOfBounds := fun outside =>
    noColon (withPrefix_outOfBounds.1 outside).1
  constructor
  · intro agree
    refine ⟨fun _ taken within => ?_, fun reading whole taken => absurd taken (noReading reading whole),
      fun reading whole taken => absurd taken (noReading reading whole)⟩
    obtain ⟨bytes, taken⟩ := Option.ne_none_iff_exists'.mp taken
    apply (spellsPrefix_iff read within).mp
    apply agree.rules ⟨ipv4Field bytes, _, false⟩
    rw [rules, withPrefix, if_neg noColon, taken]
    dsimp only
    rw [checkPrefix_eq, if_neg (UInt32.not_lt.mpr within)]
  · intro careful
    have spelled : ∀ cidr, withPrefix parseIpv6Text (cutAt 47 line).1 plen = .accepted cidr →
        SpellsPrefix (cutAt 47 line).2 cidr := by
      intro cidr accepted
      rw [withPrefix, if_neg noColon] at accepted
      cases taken : parseIpv4Text (cutAt 47 line).1 with
      | none =>
          rw [taken] at accepted
          cases accepted
      | some bytes =>
          rw [taken] at accepted
          dsimp only at accepted
          rw [checkPrefix_eq] at accepted
          split at accepted
          next => cases accepted
          next within =>
            cases accepted
            have within := UInt32.not_lt.mp within
            exact (spellsPrefix_iff read within).mpr
              (careful.ipv4 noColon (by rw [taken]; rintro ⟨⟩) within)
    exact ⟨by rw [rules, geoip]; exact same_self inside, by rwa [rules], by rwa [geoip]⟩

theorem agree_ipv6 (read : readPrefix (cutAt 47 line).2 = some plen)
    (colon : 58 ∈ (cutAt 47 line).1) : CidrParsersAgree line ↔ CarefulLine line plen := by
  have rules : parseCidr line = withPrefix parseIpv6Text (cutAt 47 line).1 plen := by
    rw [parseCidr_eq, read]
  have geoip : parseAddrCidr line = withPrefix parseParts (cutAt 47 line).1 plen := by
    rw [parseAddrCidr_eq, read]
  -- One reading decides for both parsers; what differs is which of them takes it.
  rcases @parseIpv6Text_cases (cutAt 47 line).1 with ⟨reading, whole, taken, stored⟩ |
    ⟨rejected, untaken⟩
  · have only : ∀ other : AddressReading, other.text = (cutAt 47 line).1 → other = reading :=
      fun other same => AddressReading.text_injective (same.trans whole.symm)
    by_cases both : PartsReading reading
    · have storedToo : parseParts (cutAt 47 line).1 = reading.stored := by
        rw [← whole]
        exact parseParts_text both
      have alike : withPrefix parseParts (cutAt 47 line).1 plen =
          withPrefix parseIpv6Text (cutAt 47 line).1 plen := by
        rw [withPrefix, withPrefix, if_pos colon, if_pos colon, stored, storedToo]
      rw [alike] at geoip
      constructor
      · intro agree
        have sides : reading.head.length ≤ 8 ∧ reading.behind.length ≤ 8 := by
          apply AddressReading.stored_inside.1
          intro outside
          apply agree.same.inside
          rw [rules]
          exact withPrefix_outOfBounds.2 ⟨colon, stored.trans outside⟩
        refine ⟨fun absent => absurd colon absent, fun other same _ => only other same ▸ sides, ?_⟩
        intro other same _ within
        obtain rfl := only other same
        obtain ⟨addr, accepted⟩ := stored_of_sides sides
        refine ⟨taken, both, (spellsPrefix_iff read within).mp
          (agree.rules ⟨addr, _, true⟩ ?_)⟩
        rw [rules, withPrefix_accepted (stored.trans accepted) colon,
          if_neg (UInt32.not_lt.mpr within)]
      · intro careful
        obtain ⟨addr, accepted⟩ := stored_of_sides (careful.sides reading whole (.inl taken))
        have result := @withPrefix_accepted parseIpv6Text _ _ plen (stored.trans accepted) colon
        have spelled : ∀ cidr, withPrefix parseIpv6Text (cutAt 47 line).1 plen = .accepted cidr →
            SpellsPrefix (cutAt 47 line).2 cidr := by
          intro cidr found
          rw [result] at found
          split at found
          next => cases found
          next within =>
            cases found
            have within := UInt32.not_lt.mp within
            exact (spellsPrefix_iff read within).mpr
              (careful.ipv6 reading whole (.inl taken) within).2.2
        have inside : withPrefix parseIpv6Text (cutAt 47 line).1 plen ≠ .outOfBounds := by
          intro outside
          have stuck := (withPrefix_outOfBounds.1 outside).2
          rw [stored, accepted] at stuck
          cases stuck
        exact ⟨by rw [rules, geoip]; exact same_self inside, by rwa [rules], by rwa [geoip]⟩
    · have rejectedToo : parseParts (cutAt 47 line).1 = .rejected () := by
        rcases @parseParts_cases (cutAt 47 line).1 with ⟨other, same, takenToo, _⟩ | ⟨rejected, _⟩
        · exact absurd (only other same ▸ takenToo) both
        · exact rejected
      have unread : parseAddrCidr line = .rejected () :=
        geoip.trans (withPrefix_rejected rejectedToo colon)
      have sided := @one_sided _ _ plen _ colon stored
      constructor
      · intro agree
        have same := agree.same
        rw [rules, unread] at same
        obtain ⟨sides, beyond⟩ := sided.mp same
        exact ⟨fun absent => absurd colon absent, fun other same _ => only other same ▸ sides,
          fun other same _ within => absurd within beyond⟩
      · intro careful
        have beyond : ¬ effectivePrefix true plen ≤ addressBits true := fun within =>
          both (careful.ipv6 reading whole (.inl taken) within).2.1
        have same := sided.mpr ⟨careful.sides reading whole (.inl taken), beyond⟩
        have out := same.of_rejected
        refine ⟨by rwa [rules, unread], ?_, ?_⟩
        · intro cidr accepted
          rw [rules, out] at accepted
          cases accepted
        · intro cidr accepted
          rw [unread] at accepted
          cases accepted
  · have out : parseCidr line = .rejected () := rules.trans (withPrefix_rejected rejected colon)
    rcases @parseParts_cases (cutAt 47 line).1 with ⟨reading, whole, taken, stored⟩ |
      ⟨rejectedToo, untakenToo⟩
    · have only : ∀ other : AddressReading, other.text = (cutAt 47 line).1 → other = reading :=
        fun other same => AddressReading.text_injective (same.trans whole.symm)
      have sided := @one_sided _ _ plen _ colon stored
      constructor
      · intro agree
        have same := agree.same
        rw [geoip, out] at same
        obtain ⟨sides, beyond⟩ := sided.mp same.symm
        exact ⟨fun absent => absurd colon absent, fun other same _ => only other same ▸ sides,
          fun other same _ within => absurd within beyond⟩
      · intro careful
        have beyond : ¬ effectivePrefix true plen ≤ addressBits true := fun within =>
          untaken reading whole (careful.ipv6 reading whole (.inr taken) within).1
        have same := sided.mpr ⟨careful.sides reading whole (.inr taken), beyond⟩
        have outToo := same.of_rejected
        refine ⟨by rw [out, geoip]; exact same.symm, ?_, ?_⟩
        · intro cidr accepted
          rw [out] at accepted
          cases accepted
        · intro cidr accepted
          rw [geoip, outToo] at accepted
          cases accepted
    · have outToo : parseAddrCidr line = .rejected () :=
        geoip.trans (withPrefix_rejected rejectedToo colon)
      have noReading : ∀ reading : AddressReading, reading.text = (cutAt 47 line).1 →
          ¬ (RulesReading reading ∨ PartsReading reading) := fun reading same taken =>
        taken.elim (untaken reading same) (untakenToo reading same)
      constructor
      · intro agree
        exact ⟨fun absent => absurd colon absent,
          fun reading same taken => absurd taken (noReading reading same),
          fun reading same taken => absurd taken (noReading reading same)⟩
      · intro careful
        refine ⟨by rw [out, outToo]; exact .rejected, ?_, ?_⟩
        · intro cidr accepted
          rw [out] at accepted
          cases accepted
        · intro cidr accepted
          rw [outToo] at accepted
          cases accepted

/-- The two parsers agree on exactly the careful lines. -/
theorem cidrParsersAgree_iff : CidrParsersAgree line ↔
    ∀ plen, readPrefix (cutAt 47 line).2 = some plen → CarefulLine line plen := by
  cases read : readPrefix (cutAt 47 line).2 with
  | none =>
      have rules : parseCidr line = .rejected () := by rw [parseCidr_eq, read]
      have geoip : parseAddrCidr line = .rejected () := by rw [parseAddrCidr_eq, read]
      refine iff_of_true ⟨by rw [rules, geoip]; exact .rejected, ?_, ?_⟩ nofun
      · intro cidr accepted
        rw [rules] at accepted
        cases accepted
      · intro cidr accepted
        rw [geoip] at accepted
        cases accepted
  | some plen =>
      have decided : CidrParsersAgree line ↔ CarefulLine line plen := by
        by_cases colon : 58 ∈ (cutAt 47 line).1
        · exact agree_ipv6 read colon
        · exact agree_ipv4 read colon
      constructor
      · intro agree other same
        obtain rfl := Option.some.inj same
        exact decided.mp agree
      · exact fun careful => decided.mpr (careful plen rfl)

/-- The prefix of `10.0.0.0/4294967304` is kept as 8. -/
theorem wrapped_prefix_accepted : ¬ CidrParsersAgree
    [49, 48, 46, 48, 46, 48, 46, 48, 47, 52, 50, 57, 52, 57, 54, 55, 51, 48, 52] := by
  intro agree
  have accepted := agree.rules ⟨ipv4Field [10, 0, 0, 0], 8, false⟩ (by decide)
  obtain ⟨_, _, value, _⟩ := accepted [52, 50, 57, 52, 57, 54, 55, 51, 48, 52] (by decide)
  exact absurd value (by decide)

end Lines

end Idsm.EthProbe
