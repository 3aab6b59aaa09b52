import Idsm.EthProbe.AddressText

/-! IPv6 addresses as texts: what each of the three parsers takes for a group and for an
address, against the notation itself. -/

set_option autoImplicit false

namespace Idsm.EthProbe

open Idsm.Foundation

/-- An address in groups: those in front, those behind two colons where it has them, and one
more colon at the end or not. -/
structure AddressReading where
  head : List (List UInt8)
  tail : Option (List (List UInt8))
  closed : Bool
  apart : ∀ group ∈ head ++ tail.getD [], group ≠ [] ∧ 58 ∉ group
  closes : closed = true → tail.getD head ≠ []

namespace AddressReading

variable (reading : AddressReading)

def text : List UInt8 :=
  match reading.tail with
  | none => joined 58 reading.head reading.closed
  | some tail => joined 58 reading.head false ++ 58 :: 58 :: joined 58 tail reading.closed

def behind : List (List UInt8) := reading.tail.getD []

def groups : List (List UInt8) := reading.head ++ reading.behind

/-- The bytes of a group of hexadecimal digits. -/
def groupBytes (group : List UInt8) : List UInt8 := be16 (UInt16.ofNat (ofDigits 16 group))

/-- The groups with the zeros between them that two colons stand for. -/
def address : List UInt8 :=
  reading.head.flatMap groupBytes ++
    (List.replicate (16 - 2 * reading.groups.length) 0 ++ reading.behind.flatMap groupBytes)

/-- The notation of addresses: eight groups, or up to seven around two colons. -/
structure Strict : Prop where
  short : ∀ group ∈ reading.groups, group.length ≤ 4
  digits : ∀ group ∈ reading.groups, ∀ digit ∈ group, isDigit 16 digit = true
  ended : reading.closed = false
  full : reading.tail = none → reading.head.length = 8
  compressed : reading.tail ≠ none → reading.groups.length ≤ 7

end AddressReading

/-- The text is written in the notation and stands for the address. -/
def Denotes (s addr : List UInt8) : Prop :=
  ∃ reading : AddressReading, reading.Strict ∧ reading.text = s ∧ reading.address = addr

section Uniqueness

variable {reading other : AddressReading}

theorem cutAtTwo_text : cutAtTwo 58 reading.text =
    reading.tail.map fun tail => (joined 58 reading.head false, joined 58 tail reading.closed) := by
  obtain ⟨head, tail, closed, apart, closes⟩ := reading
  cases tail with
  | none => exact cutAtTwo_part closes fun piece member => apart piece (List.mem_append_left _ member)
  | some tail =>
      have front : ∀ piece ∈ head, piece ≠ [] ∧ 58 ∉ piece := fun piece member =>
        apart piece (List.mem_append_left _ member)
      dsimp only [AddressReading.text]
      rw [@joined_eq 58 head false nofun, if_neg Bool.false_ne_true, List.append_nil,
        cutAtTwo_joined front]
      simp [cutAtTwo]

/-- A text has one reading. -/
theorem AddressReading.text_injective (same : reading.text = other.text) : reading = other := by
  have cuts := congrArg (cutAtTwo 58) same
  rw [cutAtTwo_text, cutAtTwo_text] at cuts
  obtain ⟨head, tail, closed, apart, closes⟩ := reading
  obtain ⟨head', tail', closed', apart', closes'⟩ := other
  cases tail with
  | none =>
      cases tail' with
      | some tail' => cases cuts
      | none =>
          obtain ⟨rfl, rfl⟩ := joined_injective closes closes'
            (fun piece member => apart piece (List.mem_append_left _ member))
            (fun piece member => apart' piece (List.mem_append_left _ member)) same
          rfl
  | some tail =>
      cases tail' with
      | none => cases cuts
      | some tail' =>
          obtain ⟨front, back⟩ := Prod.mk.inj (Option.some.inj cuts)
          have noMark : false = true → head ≠ [] := nofun
          have noMark' : false = true → head' ≠ [] := nofun
          obtain ⟨rfl, _⟩ := joined_injective noMark noMark'
            (fun piece member => apart piece (List.mem_append_left _ member))
            (fun piece member => apart' piece (List.mem_append_left _ member)) front
          obtain ⟨rfl, rfl⟩ := joined_injective closes closes'
            (fun piece member => apart piece (List.mem_append_right _ member))
            (fun piece member => apart' piece (List.mem_append_right _ member)) back
          rfl

end Uniqueness

section Groups

variable {group digits : List UInt8} {negative : Bool} {value : UInt16}

/-- What `rules.cpp` takes for a group: four bytes at most, and up to a NUL byte a number that is
not negative, with blanks, a sign and a prefix where there is room. -/
structure RulesGroup (group : List UInt8) : Prop where
  short : group.length ≤ 4
  number : ∃ negative digits, SpellsNumber 16 negative digits (cString group) ∧
    (negative = true → ofDigits 16 digits = 0)

/-- What `geoip.cpp` and `eve.cpp` take for a group: also a negative number, or a NUL byte in
front. -/
structure PartsGroup (group : List UInt8) : Prop where
  short : group.length ≤ 4
  number : cString group = [] ∨ ∃ negative digits, SpellsNumber 16 negative digits (cString group)

/-- The number that is stored for a group. -/
def groupValue (group : List UInt8) : UInt16 :=
  match strtol 16 (cString group) with
  | some (v, _) => UInt16.ofInt v
  | none => 0

theorem spelled_lt (spells : SpellsNumber 16 negative digits (cString group))
    (short : group.length ≤ 4) : ofDigits 16 digits < 65536 := by
  have within : digits.length ≤ (cString group).length := by
    obtain ⟨blanks, sign, mark, _, _, _, whole⟩ := spells.spelled
    rw [whole]
    simp only [List.length_append]
    omega
  have cut : (cString group).length ≤ group.length := (List.takeWhile_sublist _).length_le
  calc ofDigits 16 digits < 16 ^ digits.length := ofDigits_lt (by decide) spells.plain
    _ ≤ 16 ^ 4 := Nat.pow_le_pow_right (by decide) (by omega)

theorem strtol_spelled (spells : SpellsNumber 16 negative digits (cString group))
    (short : group.length ≤ 4) : strtol 16 (cString group) =
      some (if negative then -(ofDigits 16 digits : Int) else ofDigits 16 digits, []) := by
  have small := spelled_lt spells short
  rw [strtol, spells.scan, Option.map_some]
  cases negative with
  | true =>
      simp only [if_true, Option.some.injEq, Prod.mk.injEq, and_true]
      omega
  | false =>
      simp only [Bool.false_eq_true, if_false, Option.some.injEq, Prod.mk.injEq, and_true]
      omega

theorem spells_of_strtol {v : Int} (read : strtol 16 (cString group) = some (v, [])) :
    ∃ negative digits, SpellsNumber 16 negative digits (cString group) := by
  obtain ⟨⟨negative, number, rest⟩, scanned, same⟩ := Option.map_eq_some_iff.mp read
  obtain ⟨_, rfl⟩ := Prod.mk.inj same
  obtain ⟨digits, spells, _⟩ := scanInteger_eq_some.1 scanned
  exact ⟨negative, digits, spells⟩

theorem readGroup_eq_some : readGroup group = some value ↔
    (group ≠ [] ∧ RulesGroup group) ∧ value = groupValue group := by
  unfold readGroup
  constructor
  · intro read
    split at read
    next => cases read
    next sized =>
      obtain ⟨nonempty, short⟩ := not_or.mp sized
      split at read
      next => cases read
      next v rest found =>
        split at read
        next => cases read
        next bounded =>
          obtain ⟨ended, bounds⟩ := not_or.mp bounded
          obtain rfl := not_not.mp ended
          obtain ⟨negative, digits, spells⟩ := spells_of_strtol found
          refine ⟨⟨nonempty, Nat.le_of_not_lt short, negative, digits, spells, ?_⟩, ?_⟩
          · rintro rfl
            rw [strtol_spelled spells (Nat.le_of_not_lt short)] at found
            obtain ⟨rfl, _⟩ := Prod.mk.inj (Option.some.inj found)
            simp only [if_true] at bounds
            omega
          · rw [groupValue, found]
            exact (Option.some.inj read).symm
  · rintro ⟨⟨nonempty, short, negative, digits, spells, positive⟩, rfl⟩
    have small := spelled_lt spells short
    rw [if_neg (not_or.mpr ⟨nonempty, Nat.not_lt.mpr short⟩), groupValue,
      strtol_spelled spells short]
    cases negative with
    | true =>
        dsimp only
        rw [positive rfl]
        rfl
    | false =>
        dsimp only
        rw [if_neg]
        simp only [Bool.false_eq_true, if_false]
        refine not_or.mpr ⟨fun more => more rfl, ?_⟩
        omega

theorem readPart_eq_some : readPart group = some value ↔
    (group ≠ [] ∧ PartsGroup group) ∧ value = groupValue group := by
  unfold readPart
  constructor
  · intro read
    split at read
    next => cases read
    next sized =>
      obtain ⟨nonempty, short⟩ := not_or.mp sized
      split at read
      next unread =>
        split at read
        next empty =>
          refine ⟨⟨nonempty, Nat.le_of_not_lt short, .inl empty⟩, ?_⟩
          rw [groupValue, unread]
          exact (Option.some.inj read).symm
        next => cases read
      next v rest found =>
        split at read
        next => cases read
        next bounded =>
          obtain ⟨ended, _⟩ := not_or.mp bounded
          obtain rfl := not_not.mp ended
          refine ⟨⟨nonempty, Nat.le_of_not_lt short, .inr (spells_of_strtol found)⟩, ?_⟩
          rw [groupValue, found]
          exact (Option.some.inj read).symm
  · rintro ⟨⟨nonempty, short, number⟩, rfl⟩
    rw [if_neg (not_or.mpr ⟨nonempty, Nat.not_lt.mpr short⟩), groupValue]
    rcases number with empty | ⟨negative, digits, spells⟩
    · rw [empty]
      rfl
    · have small := spelled_lt spells short
      rw [strtol_spelled spells short]
      dsimp only
      rw [if_neg]
      refine not_or.mpr ⟨fun more => more rfl, ?_⟩
      cases negative with
      | true =>
          simp only [if_true]
          omega
      | false =>
          simp only [Bool.false_eq_true, if_false]
          omega

/-- Digits are a group for both, of their own value. -/
theorem RulesGroup.of_digits (short : group.length ≤ 4) (nonempty : group ≠ [])
    (plain : ∀ digit ∈ group, isDigit 16 digit = true) : RulesGroup group where
  short := short
  number := ⟨false, group, by
    rw [cString_of_digits plain]
    exact SpellsNumber.of_digits nonempty plain, nofun⟩

theorem RulesGroup.parts (reads : RulesGroup group) : PartsGroup group where
  short := reads.short
  number := by
    obtain ⟨negative, digits, spells, _⟩ := reads.number
    exact .inr ⟨negative, digits, spells⟩

theorem groupValue_of_digits (short : group.length ≤ 4) (nonempty : group ≠ [])
    (plain : ∀ digit ∈ group, isDigit 16 digit = true) :
    groupValue group = UInt16.ofNat (ofDigits 16 group) := by
  have spells : SpellsNumber 16 false group (cString group) := by
    rw [cString_of_digits plain]
    exact SpellsNumber.of_digits nonempty plain
  have small := spelled_lt spells short
  rw [groupValue, strtol_spelled spells short]
  dsimp only
  rw [if_neg Bool.false_ne_true, UInt16.ofInt]
  congr 1
  omega

end Groups

section Parts

variable {s : List UInt8} {values : List UInt16} {groups : List (List UInt8)}

theorem mapM_eq_some {α β : Type} {f : α → Option β} {reads : α → Prop} {value : α → β}
    {items : List α} {out : List β} (each : ∀ a b, f a = some b ↔ reads a ∧ b = value a) :
    items.mapM f = some out ↔ (∀ a ∈ items, reads a) ∧ out = items.map value := by
  induction items generalizing out with
  | nil => simp [eq_comm]
  | cons a items ih =>
      rw [List.mapM_cons]
      constructor
      · intro mapped
        obtain ⟨b, first, mapped⟩ := Option.bind_eq_some_iff.mp mapped
        obtain ⟨bs, later, whole⟩ := Option.bind_eq_some_iff.mp mapped
        obtain ⟨readFirst, rfl⟩ := (each a b).mp first
        obtain ⟨readLater, rfl⟩ := ih.mp later
        exact ⟨List.forall_mem_cons.mpr ⟨readFirst, readLater⟩, (Option.some.inj whole).symm⟩
      · rintro ⟨read, rfl⟩
        obtain ⟨readFirst, readLater⟩ := List.forall_mem_cons.mp read
        rw [(each a (value a)).mpr ⟨readFirst, rfl⟩, ih.mpr ⟨readLater, rfl⟩]
        rfl

/-- `rules.cpp` reads the groups of a part that may end with a colon. -/
theorem parseGroups_eq_some : parseGroups s = some values ↔
    ∃ groups closed, (∀ group ∈ groups, group ≠ [] ∧ 58 ∉ group) ∧
      (∀ group ∈ groups, RulesGroup group) ∧ (closed = true → groups ≠ []) ∧
      joined 58 groups closed = s ∧ values = groups.map groupValue := by
  rw [parseGroups, mapM_eq_some fun group value => readGroup_eq_some]
  constructor
  · rintro ⟨reads, rfl⟩
    obtain ⟨closed, closes, whole⟩ := @joined_fields 58 s
    refine ⟨_, closed, fun group member => ⟨(reads group member).1, ?_⟩,
      fun group member => (reads group member).2, closes, whole, rfl⟩
    apply not_mem_splitOn group
    unfold fields at member
    dsimp only at member
    split at member
    · exact List.mem_of_mem_dropLast member
    · exact member
  · rintro ⟨groups, closed, apart, reads, closes, rfl, rfl⟩
    rw [fields_joined closes apart]
    exact ⟨fun group member => ⟨(apart group member).1, reads group member⟩, rfl⟩

/-- `geoip.cpp` and `eve.cpp` read the groups of a part that does not. -/
theorem parsePart_eq_some : parsePart s = some values ↔
    ∃ groups, (∀ group ∈ groups, group ≠ [] ∧ 58 ∉ group) ∧
      (∀ group ∈ groups, PartsGroup group) ∧ joined 58 groups false = s ∧
      values = groups.map groupValue := by
  unfold parsePart
  split
  next empty =>
    subst empty
    constructor
    · intro read
      exact ⟨[], nofun, nofun, rfl, (Option.some.inj read).symm⟩
    · rintro ⟨groups, apart, _, whole, rfl⟩
      have unclosed : false = true → groups ≠ [] := nofun
      have none := congrArg (fields 58) whole
      rw [fields_joined unclosed apart] at none
      rw [none]
      rfl
  next some =>
    rw [mapM_eq_some fun group value => readPart_eq_some]
    constructor
    · rintro ⟨reads, rfl⟩
      refine ⟨_, fun group member => ⟨(reads group member).1, not_mem_splitOn group member⟩,
        fun group member => (reads group member).2, ?_, rfl⟩
      exact (congrArg _ (List.append_nil _)).trans (List.intercalate_splitOn 58)
    · rintro ⟨groups, apart, reads, rfl, rfl⟩
      have nonempty : groups ≠ [] := by
        rintro rfl
        exact some rfl
      rw [splitOn_joined nonempty apart, if_neg Bool.false_ne_true, List.append_nil]
      exact ⟨fun group member => ⟨(apart group member).1, reads group member⟩, rfl⟩

end Parts

section Stores

variable {head tail : List UInt16} {reading : AddressReading}

theorem storeAt_within {front old rest bytes : List UInt8} {idx : UInt64}
    (start : idx.toNat = front.length) (fits : old.length = bytes.length)
    (bounded : front.length + bytes.length < 2 ^ 64) :
    storeAt (front ++ (old ++ rest)) idx bytes = some (front ++ (bytes ++ rest)) := by
  induction bytes generalizing front old idx with
  | nil =>
      rw [List.eq_nil_of_length_eq_zero fits]
      rfl
  | cons byte bytes ih =>
      obtain ⟨first, old, rfl⟩ := List.exists_cons_of_length_eq_add_one fits
      have next : (idx + 1).toNat = (front ++ [byte]).length := by
        rw [List.length_append, List.length_singleton, ← start, UInt64.toNat_add]
        apply Nat.mod_eq_of_lt
        rw [start]
        exact Nat.lt_of_le_of_lt (by simp) bounded
      have set : (front ++ (first :: old ++ rest)).set idx.toNat byte =
          (front ++ [byte]) ++ (old ++ rest) := by
        rw [start, List.set_append_right _ _ (Nat.le_refl _), Nat.sub_self]
        simp
      rw [storeAt, if_pos (by simp [start]), set, ih next (Nat.succ.inj fits)
        (by simpa [Nat.add_assoc, Nat.add_comm 1] using bounded)]
      simp

theorem length_flatMap_be16 (groups : List UInt16) :
    (groups.flatMap be16).length = 2 * groups.length := by
  induction groups with
  | nil => rfl
  | cons group groups ih =>
      rw [List.flatMap_cons, List.length_append, ih, List.length_cons]
      exact (Nat.add_comm _ _).trans (Nat.mul_succ 2 _).symm

theorem tailStart {count : Nat} (few : count ≤ 8) :
    (16 - UInt64.ofNat count * 2).toNat = 16 - 2 * count := by
  have small : count < UInt64.size := by
    change count < 2 ^ 64
    omega
  rw [UInt64.toNat_sub, UInt64.toNat_mul, UInt64.toNat_ofNat_of_lt' small]
  simp
  omega

theorem storeGroups_within (fits : head.length + tail.length ≤ 8) :
    storeGroups head tail = .accepted (head.flatMap be16 ++
      (List.replicate (16 - 2 * (head.length + tail.length)) 0 ++ tail.flatMap be16)) := by
  have front := length_flatMap_be16 head
  have back := length_flatMap_be16 tail
  have zeros : List.replicate 16 (0 : UInt8) = [] ++ (List.replicate (2 * head.length) 0 ++
      (List.replicate (16 - 2 * (head.length + tail.length)) 0 ++
        List.replicate (2 * tail.length) 0)) := by
    rw [List.nil_append, List.replicate_append_replicate, List.replicate_append_replicate]
    congr 1
    omega
  have start := @tailStart tail.length (by omega)
  rw [storeGroups, zeros, storeAt_within rfl (by simp [front]) (by simp [front]; omega)]
  dsimp only
  have whole : [] ++ (head.flatMap be16 ++
      (List.replicate (16 - 2 * (head.length + tail.length)) 0 ++
        List.replicate (2 * tail.length) 0)) =
      (head.flatMap be16 ++ List.replicate (16 - 2 * (head.length + tail.length)) 0) ++
        (List.replicate (2 * tail.length) (0 : UInt8) ++ []) := by
    simp
  rw [whole, storeAt_within (by rw [start]; simp [front]; omega) (by simp [back])
    (by simp [front, back]; omega)]
  simp

theorem storeGroups_ne_rejected : storeGroups head tail ≠ .rejected () := by
  unfold storeGroups
  split
  next => nofun
  next =>
    split
    next => nofun
    next => nofun

end Stores

/-- What a parser stores for a text with these groups. -/
def AddressReading.stored (reading : AddressReading) : Parsed Unit (List UInt8) :=
  storeGroups (reading.head.map groupValue) (reading.behind.map groupValue)

/-- What `rules.cpp` takes for an address: up to fourteen groups around two colons, and a colon
behind the last group. -/
structure RulesReading (reading : AddressReading) : Prop where
  groups : ∀ group ∈ reading.groups, RulesGroup group
  full : reading.tail = none → reading.head.length = 8
  compressed : reading.tail ≠ none → reading.groups.length ≤ 14

/-- What `geoip.cpp` and `eve.cpp` take for an address: any number of groups around two
colons. -/
structure PartsReading (reading : AddressReading) : Prop where
  groups : ∀ group ∈ reading.groups, PartsGroup group
  ended : reading.closed = false
  full : reading.tail = none → reading.head.length = 8

section Readings

variable {s : List UInt8} {reading : AddressReading}

theorem AddressReading.Strict.rules (strict : reading.Strict) : RulesReading reading where
  groups group member := .of_digits (strict.short group member) (reading.apart group member).1
    (strict.digits group member)
  full := strict.full
  compressed compressed := Nat.le_trans (strict.compressed compressed) (by decide)

theorem AddressReading.Strict.parts (strict : reading.Strict) : PartsReading reading where
  groups group member := (strict.rules.groups group member).parts
  ended := strict.ended
  full := strict.full

theorem AddressReading.Strict.bytes (strict : reading.Strict) {groups : List (List UInt8)}
    (among : ∀ group ∈ groups, group ∈ reading.groups) :
    (groups.map groupValue).flatMap be16 = groups.flatMap groupBytes := by
  induction groups with
  | nil => rfl
  | cons group groups ih =>
      have member := among group List.mem_cons_self
      rw [List.map_cons, List.flatMap_cons, List.flatMap_cons,
        ih fun later within => among later (List.mem_cons_of_mem _ within),
        groupValue_of_digits (strict.short group member) (reading.apart group member).1
          (strict.digits group member)]
      rfl

/-- The notation's address is what is stored. -/
theorem AddressReading.Strict.stored (strict : reading.Strict) :
    reading.stored = .accepted reading.address := by
  have few : reading.head.length + reading.behind.length ≤ 8 := by
    cases split : reading.tail with
    | none =>
        rw [strict.full split, AddressReading.behind, split]
        exact Nat.le_refl _
    | some tail =>
        have most := strict.compressed (by rw [split]; nofun)
        rw [AddressReading.groups, List.length_append] at most
        exact Nat.le_succ_of_le most
  rw [AddressReading.stored, storeGroups_within (by rwa [List.length_map, List.length_map]),
    strict.bytes fun group member => List.mem_append_left _ member,
    strict.bytes fun group member => List.mem_append_right _ member, List.length_map,
    List.length_map, ← List.length_append]
  rfl

theorem colon_mem_joined {mark : UInt8} {pieces : List (List UInt8)} {closed : Bool}
    (several : 1 < pieces.length) : mark ∈ joined mark pieces closed := by
  cases pieces with
  | nil => cases several
  | cons first pieces =>
      cases pieces with
      | nil => exact absurd several (Nat.lt_irrefl 1)
      | cons second pieces =>
          unfold joined
          rw [List.cons_append, List.cons_append, List.intercalate_cons_cons]
          simp

theorem AddressReading.colon_mem (full : reading.tail = none → reading.head.length = 8) :
    58 ∈ reading.text := by
  unfold AddressReading.text
  cases split : reading.tail with
  | none => exact colon_mem_joined (by rw [full split]; decide)
  | some tail => simp

theorem parseIpv6Text_text (reads : RulesReading reading) :
    parseIpv6Text reading.text = reading.stored := by
  have cut := @cutAtTwo_text reading
  obtain ⟨head, tail, closed, apart, closes⟩ := reading
  have front : ∀ group ∈ head, group ≠ [] ∧ 58 ∉ group := fun group member =>
    apart group (List.mem_append_left _ member)
  have frontReads : ∀ group ∈ head, RulesGroup group := fun group member =>
    reads.groups group (List.mem_append_left _ member)
  rw [parseIpv6Text, if_neg (not_not.mpr (AddressReading.colon_mem reads.full)), cut]
  cases tail with
  | none =>
      dsimp only [Option.map_none, AddressReading.text]
      rw [parseGroups_eq_some.2 ⟨head, closed, front, frontReads, closes, rfl, rfl⟩]
      dsimp only
      rw [List.length_map, if_pos (reads.full rfl)]
      rfl
  | some tail =>
      have back : ∀ group ∈ tail, group ≠ [] ∧ 58 ∉ group := fun group member =>
        apart group (List.mem_append_right _ member)
      have backReads : ∀ group ∈ tail, RulesGroup group := fun group member =>
        reads.groups group (List.mem_append_right _ member)
      have unclosed : false = true → head ≠ [] := nofun
      have closesTail : closed = true → tail ≠ [] := closes
      have most := reads.compressed nofun
      rw [AddressReading.groups, List.length_append] at most
      dsimp only [Option.map_some]
      rw [cutAtTwo_part closesTail back, Option.isSome_none, if_neg Bool.false_ne_true,
        parseGroups_eq_some.2 ⟨head, false, front, frontReads, unclosed, rfl, rfl⟩,
        parseGroups_eq_some.2 ⟨tail, closed, back, backReads, closesTail, rfl, rfl⟩]
      have fits : ¬ 14 < head.length + tail.length := Nat.not_lt.mpr most
      dsimp only
      rw [List.length_map, List.length_map, if_neg fits]
      rfl

theorem parseParts_text (reads : PartsReading reading) :
    parseParts reading.text = reading.stored := by
  have cut := @cutAtTwo_text reading
  obtain ⟨head, tail, closed, apart, closes⟩ := reading
  obtain rfl : closed = false := reads.ended
  have front : ∀ group ∈ head, group ≠ [] ∧ 58 ∉ group := fun group member =>
    apart group (List.mem_append_left _ member)
  have frontReads : ∀ group ∈ head, PartsGroup group := fun group member =>
    reads.groups group (List.mem_append_left _ member)
  rw [parseParts, cut]
  cases tail with
  | none =>
      dsimp only [Option.map_none, AddressReading.text]
      rw [parsePart_eq_some.2 ⟨head, front, frontReads, rfl, rfl⟩]
      dsimp only
      rw [List.length_map, if_pos (reads.full rfl)]
      rfl
  | some tail =>
      have back : ∀ group ∈ tail, group ≠ [] ∧ 58 ∉ group := fun group member =>
        apart group (List.mem_append_right _ member)
      have backReads : ∀ group ∈ tail, PartsGroup group := fun group member =>
        reads.groups group (List.mem_append_right _ member)
      dsimp only [Option.map_some]
      rw [parsePart_eq_some.2 ⟨head, front, frontReads, rfl, rfl⟩,
        parsePart_eq_some.2 ⟨tail, back, backReads, rfl, rfl⟩]
      rfl

theorem reading_of_parseIpv6Text (taken : parseIpv6Text s ≠ .rejected ()) :
    ∃ reading, RulesReading reading ∧ reading.text = s := by
  unfold parseIpv6Text at taken
  split at taken
  next => exact absurd rfl taken
  next =>
    split at taken
    next before behind cut =>
      obtain ⟨split, last⟩ := cutAtTwo_eq_some cut
      split at taken
      next => exact absurd rfl taken
      next =>
        split at taken
        next head tail front back =>
          split at taken
          next => exact absurd rfl taken
          next most =>
            obtain ⟨groups, closed, apart, reads, closes, rfl, rfl⟩ :=
              parseGroups_eq_some.1 front
            obtain ⟨more, ended, apartMore, readsMore, closesMore, rfl, rfl⟩ :=
              parseGroups_eq_some.1 back
            have unclosed : closed = false := by
              cases closed with
              | false => rfl
              | true =>
                  rw [joined_eq closes, if_pos rfl] at last
                  exact absurd List.getLast?_concat last
            subst unclosed
            have all : ∀ group ∈ groups ++ more, group ≠ [] ∧ 58 ∉ group := fun group member =>
              (List.mem_append.mp member).elim (apart group) (apartMore group)
            refine ⟨⟨groups, some more, ended, all, closesMore⟩, ⟨?_, nofun, fun _ => ?_⟩, split.symm⟩
            · exact fun group member => (List.mem_append.mp member).elim (reads group)
                (readsMore group)
            · rw [List.length_map, List.length_map, ← List.length_append] at most
              exact Nat.not_lt.mp most
        next => exact absurd rfl taken
    next =>
      split at taken
      next head front =>
        split at taken
        next eight =>
          obtain ⟨groups, closed, apart, reads, closes, rfl, rfl⟩ := parseGroups_eq_some.1 front
          rw [List.length_map] at eight
          refine ⟨⟨groups, none, closed, ?_, closes⟩, ⟨?_, fun _ => eight, nofun⟩, rfl⟩
          · rwa [Option.getD_none, List.append_nil]
          · exact fun group member => reads group ((List.mem_append.mp member).resolve_right nofun)
        next => exact absurd rfl taken
      next => exact absurd rfl taken

theorem reading_of_parseParts (taken : parseParts s ≠ .rejected ()) :
    ∃ reading, PartsReading reading ∧ reading.text = s := by
  unfold parseParts at taken
  split at taken
  next before behind cut =>
    obtain ⟨split, _⟩ := cutAtTwo_eq_some cut
    split at taken
    next head tail front back =>
      obtain ⟨groups, apart, reads, rfl, rfl⟩ := parsePart_eq_some.1 front
      obtain ⟨more, apartMore, readsMore, rfl, rfl⟩ := parsePart_eq_some.1 back
      have all : ∀ group ∈ groups ++ more, group ≠ [] ∧ 58 ∉ group := fun group member =>
        (List.mem_append.mp member).elim (apart group) (apartMore group)
      refine ⟨⟨groups, some more, false, all, nofun⟩, ⟨?_, rfl, nofun⟩, split.symm⟩
      exact fun group member => (List.mem_append.mp member).elim (reads group) (readsMore group)
    next => exact absurd rfl taken
  next =>
    split at taken
    next head front =>
      split at taken
      next eight =>
        obtain ⟨groups, apart, reads, rfl, rfl⟩ := parsePart_eq_some.1 front
        rw [List.length_map] at eight
        refine ⟨⟨groups, none, false, ?_, nofun⟩, ⟨?_, rfl, fun _ => eight⟩, rfl⟩
        · rwa [Option.getD_none, List.append_nil]
        · exact fun group member => reads group ((List.mem_append.mp member).resolve_right nofun)
      next => exact absurd rfl taken
    next => exact absurd rfl taken

end Readings

section Conformance

variable {parse : List UInt8 → Parsed Unit (List UInt8)} {s : List UInt8}
  {readable : AddressReading → Prop}

/-- On the text the parser stays inside of the sixteen bytes, and it accepts what the notation
allows, as the address it stands for, and nothing else. -/
structure Conforms (parse : List UInt8 → Parsed Unit (List UInt8)) (s : List UInt8) : Prop where
  inside : parse s ≠ .outOfBounds
  exact : ∀ addr, parse s = .accepted addr ↔ Denotes s addr

/-- A parser of readings conforms on a text if its reading, where it has one, is strict. -/
theorem conforms_iff (reads : ∀ reading, readable reading → parse reading.text = reading.stored)
    (read : parse s ≠ .rejected () → ∃ reading, readable reading ∧ reading.text = s)
    (wide : ∀ reading : AddressReading, reading.Strict → readable reading) :
    Conforms parse s ↔ ∀ reading : AddressReading, reading.text = s → readable reading →
      reading.Strict := by
  constructor
  · intro conforms reading whole taken
    have stored := reads reading taken
    rw [whole] at stored
    cases result : reading.stored with
    | rejected err => exact absurd result storeGroups_ne_rejected
    | outOfBounds => exact absurd (stored.trans result) conforms.inside
    | accepted addr =>
        obtain ⟨other, strict, same, _⟩ := (conforms.exact addr).mp (stored.trans result)
        exact AddressReading.text_injective (same.trans whole.symm) ▸ strict
  · intro strictly
    constructor
    · intro outside
      obtain ⟨reading, taken, rfl⟩ := read (by rw [outside]; nofun)
      rw [reads reading taken, (strictly reading rfl taken).stored] at outside
      cases outside
    · intro addr
      constructor
      · intro accepted
        obtain ⟨reading, taken, rfl⟩ := read (by rw [accepted]; nofun)
        have strict := strictly reading rfl taken
        rw [reads reading taken, strict.stored] at accepted
        cases accepted
        exact ⟨reading, strict, rfl, rfl⟩
      · rintro ⟨reading, strict, rfl, rfl⟩
        rw [reads reading (wide reading strict), strict.stored]

theorem Conforms.congr {other : List UInt8 → Parsed Unit (List UInt8)} (same : parse s = other s) :
    Conforms parse s ↔ Conforms other s := by
  constructor
  · exact fun conforms => ⟨same ▸ conforms.inside, same ▸ conforms.exact⟩
  · exact fun conforms => ⟨same ▸ conforms.inside, same ▸ conforms.exact⟩

end Conformance

section Lines

variable {line addr : List UInt8} {plen : UInt32} {v6 : Bool}

def addressBits (v6 : Bool) : UInt32 := if v6 then 128 else 32

/-- The prefix that is checked and stored. -/
def effectivePrefix (v6 : Bool) (plen : UInt32) : UInt32 :=
  if plen = noPrefix then addressBits v6 else plen

theorem checkPrefix_eq : checkPrefix plen addr v6 =
    if addressBits v6 < effectivePrefix v6 plen then .rejected ()
    else .accepted ⟨addr, (effectivePrefix v6 plen).toNat, v6⟩ := rfl

theorem checkPrefix_ne_outOfBounds : checkPrefix plen addr v6 ≠ .outOfBounds := by
  rw [checkPrefix_eq]
  split
  · nofun
  · nofun

/-- The prefix of a line, the one that stands for none where it has no slash. -/
def readPrefix : Option (List UInt8) → Option UInt32
  | none => some noPrefix
  | some text => parseU32 text

/-- The network of an address text and a prefix, with a parser for the texts that have a
colon. -/
def withPrefix (parse : List UInt8 → Parsed Unit (List UInt8)) (a : List UInt8) (plen : UInt32) :
    Parsed Unit Cidr :=
  if 58 ∈ a then
    match parse a with
    | .rejected err => .rejected err
    | .outOfBounds => .outOfBounds
    | .accepted bytes => checkPrefix plen bytes true
  else
    match parseIpv4Text a with
    | none => .rejected ()
    | some bytes => checkPrefix plen (ipv4Field bytes) false

theorem parseCidr_eq : parseCidr line =
    match readPrefix (cutAt 47 line).2 with
    | none => .rejected ()
    | some plen => withPrefix parseIpv6Text (cutAt 47 line).1 plen := by
  unfold parseCidr
  obtain ⟨a, behind⟩ := cutAt 47 line
  cases behind with
  | none => rfl
  | some text => rfl

/-- `geoip.cpp` reads the prefix as `rules.cpp` does; no number is read of an empty text. -/
theorem parseAddrCidr_eq : parseAddrCidr line =
    match readPrefix (cutAt 47 line).2 with
    | none => .rejected ()
    | some plen => withPrefix parseParts (cutAt 47 line).1 plen := by
  unfold parseAddrCidr
  obtain ⟨a, behind⟩ := cutAt 47 line
  cases behind with
  | none => rfl
  | some text =>
      dsimp only
      by_cases empty : text = []
      · rw [empty]
        rfl
      · rw [readPrefix, parseU32, if_neg empty]
        rfl

end Lines

section Parsers

variable {s suffix : List UInt8}

/-- The event bridge's parser on what it takes for IPv6. -/
def eveIpv6 (s : List UInt8) : Parsed Unit (List UInt8) :=
  if 58 ∈ s then ipLiteralToBytes s else .rejected ()

/-- What stands behind an IPv6 address in a line: nothing, or a slash and a prefix that is
accepted. -/
def Ipv6Suffix (suffix : List UInt8) : Prop :=
  suffix = [] ∨ ∃ text plen, suffix = 47 :: text ∧ parseU32 text = some plen ∧
    effectivePrefix true plen ≤ addressBits true

/-- The address of an IPv6 network. -/
def ipv6Address : Parsed Unit Cidr → Parsed Unit (List UInt8)
  | .rejected err => .rejected err
  | .outOfBounds => .outOfBounds
  | .accepted cidr => if cidr.v6 then .accepted cidr.addr else .rejected ()

theorem eveIpv6_eq : eveIpv6 s = if 58 ∈ s then parseParts s else .rejected () := by
  unfold eveIpv6 ipLiteralToBytes
  by_cases colon : 58 ∈ s
  · rw [if_pos colon, if_pos colon]
    exact if_neg (not_not.mpr colon)
  · rw [if_neg colon, if_neg colon]

theorem eveIpv6_conforms_iff : Conforms eveIpv6 s ↔
    ∀ reading : AddressReading, reading.text = s → PartsReading reading → reading.Strict := by
  apply conforms_iff
  · intro reading taken
    rw [eveIpv6_eq, if_pos (AddressReading.colon_mem taken.full)]
    exact parseParts_text taken
  · intro taken
    rw [eveIpv6_eq] at taken
    split at taken
    · exact reading_of_parseParts taken
    · exact absurd rfl taken
  · exact fun reading strict => strict.parts

/-- With an accepted prefix or none the address of a line is read as the event bridge reads it. -/
theorem parseAddrCidr_address (literal : 47 ∉ s) (behind : Ipv6Suffix suffix) :
    ipv6Address (parseAddrCidr (s ++ suffix)) = eveIpv6 s := by
  rw [eveIpv6_eq]
  have read : ∃ plen, effectivePrefix true plen ≤ addressBits true ∧
      parseAddrCidr (s ++ suffix) = withPrefix parseParts s plen := by
    rcases behind with rfl | ⟨text, plen, rfl, number, few⟩
    · refine ⟨noPrefix, by decide, ?_⟩
      rw [List.append_nil, parseAddrCidr_eq, cutAt_absent literal]
      rfl
    · refine ⟨plen, few, ?_⟩
      have read : readPrefix (some text) = some plen := number
      rw [parseAddrCidr_eq, cutAt_past literal]
      dsimp only
      rw [read]
  obtain ⟨plen, few, read⟩ := read
  rw [read, withPrefix]
  by_cases colon : 58 ∈ s
  · rw [if_pos colon, if_pos colon]
    cases parseParts s with
    | rejected err => rfl
    | outOfBounds => rfl
    | accepted bytes =>
        dsimp only
        rw [checkPrefix_eq, if_neg (UInt32.not_lt.mpr few)]
        rfl
  · rw [if_neg colon, if_neg colon]
    cases parseIpv4Text s with
    | none => rfl
    | some bytes =>
        dsimp only
        rw [checkPrefix_eq]
        split
        · rfl
        · rfl

theorem withPrefix_outOfBounds {parse : List UInt8 → Parsed Unit (List UInt8)} {plen : UInt32} :
    withPrefix parse s plen = .outOfBounds ↔ 58 ∈ s ∧ parse s = .outOfBounds := by
  unfold withPrefix
  by_cases colon : 58 ∈ s
  · rw [if_pos colon]
    cases parse s with
    | rejected err => simp
    | outOfBounds => simp [colon]
    | accepted bytes => simp [checkPrefix_ne_outOfBounds]
  · rw [if_neg colon]
    cases parseIpv4Text s with
    | none => simp [colon]
    | some bytes => simp [colon, checkPrefix_ne_outOfBounds]

/-- Each of the three parsers conforms on the text; the one of `geoip.cpp` on every line that has
it in front of its prefix, and it stays inside whatever the prefix is. -/
structure Ipv6ParsersConform (s : List UInt8) : Prop where
  rules : Conforms parseIpv6Text s
  geoip : 47 ∉ s → ∀ suffix, Ipv6Suffix suffix →
    Conforms (fun s => ipv6Address (parseAddrCidr (s ++ suffix))) s
  inside : 47 ∉ s → ∀ text, parseAddrCidr (s ++ 47 :: text) ≠ .outOfBounds
  eve : Conforms eveIpv6 s

/-- A text that one of the parsers takes is in the notation. -/
theorem ipv6ParsersConform_iff : Ipv6ParsersConform s ↔
    ∀ reading : AddressReading, reading.text = s →
      RulesReading reading ∨ PartsReading reading → reading.Strict := by
  have rules : Conforms parseIpv6Text s ↔ ∀ reading : AddressReading, reading.text = s →
      RulesReading reading → reading.Strict :=
    conforms_iff (fun reading => parseIpv6Text_text) reading_of_parseIpv6Text
      fun reading strict => strict.rules
  constructor
  · intro conform reading whole taken
    cases taken with
    | inl taken => exact rules.1 conform.rules reading whole taken
    | inr taken => exact eveIpv6_conforms_iff.1 conform.eve reading whole taken
  · intro strictly
    have eve := eveIpv6_conforms_iff.2 fun reading whole taken =>
      strictly reading whole (.inr taken)
    constructor
    · exact rules.2 fun reading whole taken => strictly reading whole (.inl taken)
    · exact fun literal suffix behind =>
        (Conforms.congr (parseAddrCidr_address literal behind)).mpr eve
    · intro literal text outside
      rw [parseAddrCidr_eq, cutAt_past literal] at outside
      dsimp only at outside
      split at outside
      next => cases outside
      next plen =>
        obtain ⟨colon, outside⟩ := withPrefix_outOfBounds.1 outside
        apply eve.inside
        rw [eveIpv6_eq, if_pos colon]
        exact outside
    · exact eve

/-- Nine groups in front of two colons are written behind the sixteen bytes. -/
theorem ninth_group_outside : ¬ Ipv6ParsersConform
    [49, 58, 49, 58, 49, 58, 49, 58, 49, 58, 49, 58, 49, 58, 49, 58, 49, 58, 58] := by
  intro conform
  exact conform.rules.inside (by decide)

end Parsers

end Idsm.EthProbe
