import Mathlib

/-! Texts as the C library reads them: up to the first NUL byte, with blanks, a sign and a
prefix in front of the digits of a number; and where a text is cut. -/

set_option autoImplicit false

namespace Idsm.Foundation

/-- What a C function reads of a text. -/
def cString (text : List UInt8) : List UInt8 := text.takeWhile (· ≠ 0)

/-- `isspace` in the C locale. -/
def isSpace (byte : UInt8) : Bool := byte == 32 || (9 ≤ byte && byte ≤ 13)

def digitValue (byte : UInt8) : Option Nat :=
  if 48 ≤ byte ∧ byte ≤ 57 then some (byte.toNat - 48)
  else if 65 ≤ byte ∧ byte ≤ 70 then some (byte.toNat - 55)
  else if 97 ≤ byte ∧ byte ≤ 102 then some (byte.toNat - 87)
  else none

def isDigit (base : Nat) (byte : UInt8) : Bool := (digitValue byte).any (· < base)

def ofDigits (base : Nat) (digits : List UInt8) : Nat :=
  digits.foldl (fun value digit => value * base + (digitValue digit).getD 0) 0

def scanSign : List UInt8 → Bool × List UInt8
  | 43 :: rest => (false, rest)
  | 45 :: rest => (true, rest)
  | text => (false, text)

/-- `0x` in front of a hexadecimal digit. -/
def skipPrefix (base : Nat) : List UInt8 → List UInt8
  | 48 :: mark :: digit :: rest =>
      if base = 16 ∧ (mark = 120 ∨ mark = 88) ∧ isDigit base digit then digit :: rest
      else 48 :: mark :: digit :: rest
  | text => text

/-- The sign, the value and what follows of the number a text begins with. -/
def scanInteger (base : Nat) (text : List UInt8) : Option (Bool × Nat × List UInt8) :=
  let (negative, unsigned) := scanSign (text.dropWhile isSpace)
  let body := skipPrefix base unsigned
  let digits := body.takeWhile (isDigit base)
  if digits = [] then none
  else some (negative, ofDigits base digits, body.dropWhile (isDigit base))

/-- `strtol` for a `long` of 64 bits, with what its end pointer is left at; `none` is the start
of the text. -/
def strtol (base : Nat) (text : List UInt8) : Option (Int × List UInt8) :=
  (scanInteger base text).map fun (negative, value, rest) =>
    (max (-2 ^ 63) (min (2 ^ 63 - 1) (if negative then -(value : Int) else value)), rest)

/-- `strtoul` for an `unsigned long` of 64 bits. -/
def strtoul (base : Nat) (text : List UInt8) : Option (UInt64 × List UInt8) :=
  (scanInteger base text).map fun (negative, value, rest) =>
    (if 2 ^ 64 ≤ value then 0xFFFFFFFFFFFFFFFF
      else if negative then -UInt64.ofNat value else UInt64.ofNat value, rest)

/-- The text in front of the first mark and behind it. -/
def cutAt (mark : UInt8) : List UInt8 → List UInt8 × Option (List UInt8)
  | [] => ([], none)
  | byte :: rest =>
      if byte = mark then ([], some rest)
      else
        let (before, behind) := cutAt mark rest
        (byte :: before, behind)

/-- The text in front of the first two marks in a row and behind them. -/
def cutAtTwo (mark : UInt8) : List UInt8 → Option (List UInt8 × List UInt8)
  | first :: second :: rest =>
      if first = mark ∧ second = mark then some ([], rest)
      else (cutAtTwo mark (second :: rest)).map fun (before, behind) => (first :: before, behind)
  | _ => none

/-- The pieces between the marks, as a loop over the text reads them: behind a mark that ends
the text it reads no piece. -/
def fields (mark : UInt8) (text : List UInt8) : List (List UInt8) :=
  let pieces := text.splitOn mark
  if pieces.getLast? = some [] then pieces.dropLast else pieces

section Numbers

variable {base : Nat} {text digits : List UInt8}

theorem digitValue_lt {byte : UInt8} {value : Nat} (digit : digitValue byte = some value) :
    value < 16 := by
  have below : ∀ byte : UInt8, (digitValue byte).all (· < 16) = true := by
    rintro ⟨⟨byte⟩⟩
    revert byte
    decide +kernel
  have below := below byte
  rw [digit] at below
  exact of_decide_eq_true below

/-- A digit is no blank, no sign, no NUL, no mark of a prefix, no colon and no slash. -/
theorem isDigit_plain {byte : UInt8} (digit : isDigit base byte = true) :
    isSpace byte = false ∧ byte ∉ [43, 45, 0, 120, 88, 58, 47] := by
  have plain : ∀ byte : UInt8, (digitValue byte).isSome = true →
      isSpace byte = false ∧ byte ∉ [43, 45, 0, 120, 88, 58, 47] := by
    rintro ⟨⟨byte⟩⟩
    revert byte
    decide +kernel
  apply plain
  cases found : digitValue byte with
  | none =>
      rw [isDigit, found] at digit
      cases digit
  | some value => rfl

theorem cString_of_digits (plain : ∀ byte ∈ text, isDigit base byte = true) :
    cString text = text := by
  apply List.takeWhile_eq_self_iff.mpr
  intro byte member
  have other := (isDigit_plain (plain byte member)).2
  simp only [List.mem_cons, not_or] at other
  simpa using other.2.2.1

/-- Digits alone are their own number. -/
theorem scanInteger_of_digits (some : text ≠ [])
    (plain : ∀ byte ∈ text, isDigit base byte = true) :
    scanInteger base text = .some (false, ofDigits base text, []) := by
  obtain ⟨first, rest, rfl⟩ := List.exists_cons_of_ne_nil some
  have start := isDigit_plain (plain first List.mem_cons_self)
  have sign : scanSign ((first :: rest).dropWhile isSpace) = (false, first :: rest) := by
    rw [List.dropWhile_cons_of_neg (by simp [start.1])]
    unfold scanSign
    split
    next same => simp [(List.cons.inj same).1] at start
    next same => simp [(List.cons.inj same).1] at start
    next => rfl
  have prefixed : skipPrefix base (first :: rest) = first :: rest := by
    unfold skipPrefix
    split
    next mark digit others same =>
      rw [if_neg, same]
      rintro ⟨_, marks, _⟩
      have inside : mark ∈ first :: rest := by
        rw [same]
        exact List.mem_cons_of_mem _ List.mem_cons_self
      have other := (isDigit_plain (plain mark inside)).2
      simp only [List.mem_cons, not_or] at other
      exact marks.elim other.2.2.2.1 other.2.2.2.2.1
    next => rfl
  rw [scanInteger, sign]
  dsimp only
  rw [prefixed, List.takeWhile_eq_self_iff.mpr plain, List.dropWhile_eq_nil_iff.mpr plain,
    if_neg some]

theorem ofDigits_append (digit : UInt8) :
    ofDigits base (digits ++ [digit]) = ofDigits base digits * base + (digitValue digit).getD 0 := by
  rw [ofDigits, List.foldl_append]
  rfl

theorem ofDigits_lt (positive : 0 < base) (plain : ∀ byte ∈ digits, isDigit base byte = true) :
    ofDigits base digits < base ^ digits.length := by
  induction digits using List.reverseRecOn with
  | nil => exact Nat.one_pos
  | append_singleton digits digit ih =>
      have before := ih fun byte member => plain byte (List.mem_append_left _ member)
      have small : (digitValue digit).getD 0 < base := by
        have last := plain digit (List.mem_append_right _ List.mem_cons_self)
        cases found : digitValue digit with
        | none => exact positive
        | some value =>
            rw [isDigit, found] at last
            exact of_decide_eq_true last
      rw [ofDigits_append, List.length_append, List.length_singleton, Nat.pow_succ]
      calc ofDigits base digits * base + (digitValue digit).getD 0
          < ofDigits base digits * base + base := Nat.add_lt_add_left small _
        _ = (ofDigits base digits + 1) * base := (Nat.succ_mul _ _).symm
        _ ≤ base ^ digits.length * base := Nat.mul_le_mul_right base before

end Numbers

section Spelled

variable {base : Nat} {text digits : List UInt8} {negative : Bool} {value : Nat}

/-- The signs of a number that is negative or not. -/
def signs (negative : Bool) : List (List UInt8) := if negative then [[45]] else [[], [43]]

/-- What may stand between the sign and the digits. -/
def prefixes (base : Nat) : List (List UInt8) :=
  if base = 16 then [[], [48, 120], [48, 88]] else [[]]

/-- A text of nothing but a number: blanks, a sign, a prefix and digits. -/
structure SpellsNumber (base : Nat) (negative : Bool) (digits text : List UInt8) : Prop where
  nonempty : digits ≠ []
  plain : ∀ digit ∈ digits, isDigit base digit = true
  spelled : ∃ blanks sign mark, (∀ blank ∈ blanks, isSpace blank = true) ∧
    sign ∈ signs negative ∧ mark ∈ prefixes base ∧ text = blanks ++ (sign ++ (mark ++ digits))

theorem SpellsNumber.of_digits (nonempty : digits ≠ [])
    (plain : ∀ digit ∈ digits, isDigit base digit = true) :
    SpellsNumber base false digits digits where
  nonempty := nonempty
  plain := plain
  spelled := by
    refine ⟨[], [], [], nofun, List.mem_cons_self, ?_, rfl⟩
    unfold prefixes
    split
    · exact List.mem_cons_self
    · exact List.mem_cons_self

theorem scanSign_spelled : ∃ sign ∈ signs (scanSign text).1, text = sign ++ (scanSign text).2 := by
  unfold scanSign
  split
  next => exact ⟨[43], List.mem_cons_of_mem _ List.mem_cons_self, rfl⟩
  next => exact ⟨[45], List.mem_cons_self, rfl⟩
  next => exact ⟨[], List.mem_cons_self, rfl⟩

theorem skipPrefix_spelled : ∃ mark ∈ prefixes base, text = mark ++ skipPrefix base text := by
  have bare : [] ∈ prefixes base := by
    unfold prefixes
    split
    · exact List.mem_cons_self
    · exact List.mem_cons_self
  unfold skipPrefix
  split
  next mark digit rest =>
    split
    next marked =>
      obtain ⟨rfl, marks, _⟩ := marked
      cases marks with
      | inl small => exact ⟨[48, 120], by decide, by rw [small]; rfl⟩
      | inr large => exact ⟨[48, 88], by decide, by rw [large]; rfl⟩
    next => exact ⟨[], bare, rfl⟩
  next => exact ⟨[], bare, rfl⟩

theorem skipPrefix_digits (plain : ∀ digit ∈ digits, isDigit base digit = true) :
    skipPrefix base digits = digits := by
  unfold skipPrefix
  split
  next mark digit rest =>
    rw [if_neg]
    rintro ⟨_, marks, _⟩
    have other := (isDigit_plain (plain mark (List.mem_cons_of_mem _ List.mem_cons_self))).2
    simp only [List.mem_cons, not_or] at other
    exact marks.elim other.2.2.2.1 other.2.2.2.2.1
  next => rfl

theorem skipPrefix_mark {mark : List UInt8} (prefixed : mark ∈ prefixes base)
    (nonempty : digits ≠ []) (plain : ∀ digit ∈ digits, isDigit base digit = true) :
    skipPrefix base (mark ++ digits) = digits := by
  obtain ⟨first, rest, rfl⟩ := List.exists_cons_of_ne_nil nonempty
  have digit := plain first List.mem_cons_self
  unfold prefixes at prefixed
  split at prefixed
  next hexadecimal =>
    simp only [List.mem_cons, List.not_mem_nil, or_false] at prefixed
    rcases prefixed with rfl | rfl | rfl
    · exact skipPrefix_digits plain
    · exact if_pos ⟨hexadecimal, .inl rfl, digit⟩
    · exact if_pos ⟨hexadecimal, .inr rfl, digit⟩
  next =>
    obtain rfl := List.mem_singleton.mp prefixed
    exact skipPrefix_digits plain

/-- What begins with a prefix or a digit begins with no blank and no sign. -/
private theorem unsigned_start {mark : List UInt8} (prefixed : mark ∈ prefixes base)
    (nonempty : digits ≠ []) (plain : ∀ digit ∈ digits, isDigit base digit = true) :
    ∃ first rest, mark ++ digits = first :: rest ∧ isSpace first = false ∧ first ≠ 43 ∧
      first ≠ 45 := by
  obtain ⟨first, rest, rfl⟩ := List.exists_cons_of_ne_nil nonempty
  obtain ⟨noBlank, other⟩ := isDigit_plain (plain first List.mem_cons_self)
  simp only [List.mem_cons, not_or] at other
  have bare : ∃ start more, [] ++ first :: rest = start :: more ∧ isSpace start = false ∧
      start ≠ 43 ∧ start ≠ 45 := ⟨first, rest, rfl, noBlank, other.1, other.2.1⟩
  unfold prefixes at prefixed
  split at prefixed
  · simp only [List.mem_cons, List.not_mem_nil, or_false] at prefixed
    rcases prefixed with rfl | rfl | rfl
    · exact bare
    · exact ⟨48, _, rfl, rfl, by decide, by decide⟩
    · exact ⟨48, _, rfl, rfl, by decide, by decide⟩
  · obtain rfl := List.mem_singleton.mp prefixed
    exact bare

theorem SpellsNumber.scan (spells : SpellsNumber base negative digits text) :
    scanInteger base text = some (negative, ofDigits base digits, []) := by
  obtain ⟨blanks, sign, mark, blank, signed, prefixed, rfl⟩ := spells.spelled
  obtain ⟨first, rest, start, noBlank, noPlus, noMinus⟩ :=
    unsigned_start prefixed spells.nonempty spells.plain
  have cut : scanSign ((blanks ++ (sign ++ (mark ++ digits))).dropWhile isSpace) =
      (negative, mark ++ digits) := by
    rw [List.dropWhile_append_of_pos blank, start]
    cases negative with
    | true =>
        obtain rfl := List.mem_singleton.mp signed
        rfl
    | false =>
        have either : sign = [] ∨ sign = [43] := by simpa [signs] using signed
        cases either with
        | inl unsigned =>
            rw [unsigned, List.nil_append, List.dropWhile_cons_of_neg (by simp [noBlank])]
            unfold scanSign
            split
            next same => exact absurd (List.cons.inj same).1 noPlus
            next same => exact absurd (List.cons.inj same).1 noMinus
            next => rfl
        | inr plus =>
            rw [plus]
            rfl
  rw [scanInteger, cut]
  dsimp only
  rw [skipPrefix_mark prefixed spells.nonempty spells.plain,
    List.takeWhile_eq_self_iff.mpr spells.plain, List.dropWhile_eq_nil_iff.mpr spells.plain,
    if_neg spells.nonempty]

/-- The texts that are read to their end. -/
theorem scanInteger_eq_some : scanInteger base text = some (negative, value, []) ↔
    ∃ digits, SpellsNumber base negative digits text ∧ value = ofDigits base digits := by
  constructor
  · intro scanned
    unfold scanInteger at scanned
    dsimp only at scanned
    split at scanned
    next => cases scanned
    next nonempty =>
      obtain ⟨rfl, read⟩ := Prod.mk.inj (Option.some.inj scanned)
      obtain ⟨rfl, ended⟩ := Prod.mk.inj read
      have plain := List.dropWhile_eq_nil_iff.mp ended
      have whole := List.takeWhile_eq_self_iff.mpr plain
      obtain ⟨sign, signed, afterBlanks⟩ := @scanSign_spelled (text.dropWhile isSpace)
      obtain ⟨mark, marked, afterSign⟩ :=
        @skipPrefix_spelled base (scanSign (text.dropWhile isSpace)).2
      rw [whole] at nonempty ⊢
      refine ⟨_, ⟨nonempty, plain, text.takeWhile isSpace, sign, mark, ?_, signed, marked, ?_⟩, rfl⟩
      · exact fun blank member => List.mem_takeWhile_imp member
      · rw [← afterSign, ← afterBlanks, List.takeWhile_append_dropWhile]
  · rintro ⟨digits, spells, rfl⟩
    exact spells.scan

end Spelled

section Cuts

variable {mark : UInt8} {text front rest before behind : List UInt8} {pieces : List (List UInt8)}
  {closed : Bool}

theorem cutAt_past (absent : mark ∉ front) :
    cutAt mark (front ++ mark :: rest) = (front, some rest) := by
  induction front with
  | nil => exact if_pos rfl
  | cons c front ih =>
      obtain ⟨other, absent⟩ := List.ne_and_not_mem_of_not_mem_cons absent
      rw [List.cons_append, cutAt, if_neg (Ne.symm other), ih absent]

theorem cutAt_absent (absent : mark ∉ text) : cutAt mark text = (text, none) := by
  induction text with
  | nil => rfl
  | cons c text ih =>
      obtain ⟨other, absent⟩ := List.ne_and_not_mem_of_not_mem_cons absent
      rw [cutAt, if_neg (Ne.symm other), ih absent]

theorem cutAtTwo_eq_some (cut : cutAtTwo mark text = some (before, behind)) :
    text = before ++ mark :: mark :: behind ∧ before.getLast? ≠ some mark := by
  induction text generalizing before with
  | nil => cases cut
  | cons first rest ih =>
      cases rest with
      | nil => cases cut
      | cons second rest =>
          rw [cutAtTwo] at cut
          split at cut
          next both =>
            obtain ⟨rfl, rfl⟩ := Prod.mk.inj (Option.some.inj cut)
            rw [both.1, both.2]
            exact ⟨rfl, nofun⟩
          next apart =>
            obtain ⟨⟨inner, behind⟩, found, same⟩ := Option.map_eq_some_iff.mp cut
            obtain ⟨rfl, rfl⟩ := Prod.mk.inj same
            obtain ⟨split, last⟩ := ih found
            refine ⟨by rw [split, List.cons_append], ?_⟩
            cases inner with
            | nil =>
                intro ends
                rw [List.nil_append] at split
                exact apart ⟨Option.some.inj ends, (List.cons.inj split).1⟩
            | cons next inner => rwa [List.getLast?_cons_cons]

theorem cutAtTwo_apart (absent : mark ∉ front) : cutAtTwo mark (front ++ rest) =
    (cutAtTwo mark rest).map fun cut => (front ++ cut.1, cut.2) := by
  induction front with
  | nil => exact Option.map_id'.symm
  | cons first front ih =>
      obtain ⟨other, absent⟩ := not_or.mp (mt List.mem_cons.mpr absent)
      have inner := ih absent
      cases whole : front ++ rest with
      | nil =>
          obtain ⟨rfl, rfl⟩ := List.append_eq_nil_iff.mp whole
          rfl
      | cons second more =>
          rw [List.cons_append, whole, cutAtTwo, if_neg fun both => other both.1.symm, ← whole,
            inner, Option.map_map]
          rfl

theorem cutAtTwo_mark {next : UInt8} (other : next ≠ mark) :
    cutAtTwo mark (mark :: next :: rest) =
      (cutAtTwo mark (next :: rest)).map fun cut => (mark :: cut.1, cut.2) := by
  rw [cutAtTwo, if_neg fun both => other both.2]

/-- Between pieces that are not empty no two marks stand in a row. -/
theorem cutAtTwo_joined (apart : ∀ piece ∈ pieces, piece ≠ [] ∧ mark ∉ piece) :
    cutAtTwo mark ([mark].intercalate pieces ++ rest) =
      (cutAtTwo mark rest).map fun cut => ([mark].intercalate pieces ++ cut.1, cut.2) := by
  induction pieces with
  | nil => exact Option.map_id'.symm
  | cons piece pieces ih =>
      have absent := (apart piece List.mem_cons_self).2
      have inner := ih fun later member => apart later (List.mem_cons_of_mem _ member)
      cases pieces with
      | nil =>
          rw [List.intercalate_singleton]
          exact cutAtTwo_apart absent
      | cons second pieces =>
          obtain ⟨some, noMark⟩ := apart second (List.mem_cons_of_mem _ List.mem_cons_self)
          obtain ⟨first, more, rfl⟩ := List.exists_cons_of_ne_nil some
          have other : first ≠ mark := fun same => noMark (same ▸ List.mem_cons_self)
          have start : ∃ later, [mark].intercalate ((first :: more) :: pieces) = first :: later := by
            cases pieces with
            | nil => exact ⟨more, List.intercalate_singleton⟩
            | cons third pieces => exact ⟨_, List.intercalate_cons_cons⟩
          obtain ⟨later, start⟩ := start
          rw [List.intercalate_cons_cons, List.append_assoc, List.append_assoc,
            cutAtTwo_apart absent, List.singleton_append]
          rw [start, List.cons_append, cutAtTwo_mark other, ← List.cons_append, ← start, inner,
            Option.map_map, Option.map_map]
          congr 1
          funext cut
          simp

theorem not_mem_splitOn : ∀ piece ∈ text.splitOn mark, mark ∉ piece := by
  induction text with
  | nil => simp
  | cons first text ih =>
      rw [List.splitOn_cons_eq_if_modifyHead]
      split
      next => simpa using ih
      next other =>
        obtain ⟨piece, pieces, split⟩ := List.exists_cons_of_ne_nil (List.splitOn_ne_nil mark text)
        rw [split] at ih ⊢
        intro found member
        rcases List.mem_cons.mp member with rfl | later
        · intro inside
          rcases List.mem_cons.mp inside with rfl | inside
          · exact other (by simp)
          · exact ih piece List.mem_cons_self inside
        · exact ih found (List.mem_cons_of_mem _ later)

/-- Pieces with marks between them, and one more mark behind them or not. -/
def joined (mark : UInt8) (pieces : List (List UInt8)) (closed : Bool) : List UInt8 :=
  [mark].intercalate (pieces ++ if closed then [[]] else [])

theorem splitOn_joined (nonempty : pieces ≠ [])
    (apart : ∀ piece ∈ pieces, piece ≠ [] ∧ mark ∉ piece) :
    (joined mark pieces closed).splitOn mark = pieces ++ if closed then [[]] else [] := by
  apply List.splitOn_intercalate
  · intro piece member
    rcases List.mem_append.mp member with member | member
    · exact (apart piece member).2
    · split at member
      · obtain rfl := List.mem_singleton.mp member
        exact List.not_mem_nil
      · cases member
  · exact List.append_ne_nil_of_left_ne_nil nonempty _

theorem fields_joined (closes : closed = true → pieces ≠ [])
    (apart : ∀ piece ∈ pieces, piece ≠ [] ∧ mark ∉ piece) :
    fields mark (joined mark pieces closed) = pieces := by
  by_cases none : pieces = []
  · have open' : closed = false := by
      cases closed with
      | false => rfl
      | true => exact absurd none (closes rfl)
    rw [none, open']
    rfl
  · unfold fields
    rw [splitOn_joined none apart]
    cases closed with
    | true => simp
    | false =>
        have last : pieces.getLast? ≠ some [] := fun same =>
          (apart [] (List.mem_of_getLast? same)).1 rfl
        simp [last]

theorem joined_eq (closes : closed = true → pieces ≠ []) :
    joined mark pieces closed = [mark].intercalate pieces ++ if closed then [mark] else [] := by
  cases closed with
  | false => exact (congrArg _ (List.append_nil _)).trans (List.append_nil _).symm
  | true =>
      have some := closes rfl
      clear closes
      unfold joined
      rw [if_pos rfl, if_pos rfl]
      induction pieces with
      | nil => exact absurd rfl some
      | cons piece pieces ih =>
          cases pieces with
          | nil => simp
          | cons second pieces =>
              have inner := ih (List.cons_ne_nil _ _)
              rw [List.cons_append, List.cons_append] at *
              rw [List.intercalate_cons_cons, List.intercalate_cons_cons, inner,
                List.append_assoc, List.append_assoc, List.append_assoc]

theorem cutAtTwo_part (closes : closed = true → pieces ≠ [])
    (apart : ∀ piece ∈ pieces, piece ≠ [] ∧ mark ∉ piece) :
    cutAtTwo mark (joined mark pieces closed) = none := by
  rw [joined_eq closes, cutAtTwo_joined apart]
  cases closed with
  | false => rfl
  | true => rfl

theorem joined_injective {more : List (List UInt8)} {open' : Bool}
    (closes : closed = true → pieces ≠ []) (closesToo : open' = true → more ≠ [])
    (apart : ∀ piece ∈ pieces, piece ≠ [] ∧ mark ∉ piece)
    (apartToo : ∀ piece ∈ more, piece ≠ [] ∧ mark ∉ piece)
    (same : joined mark pieces closed = joined mark more open') : pieces = more ∧ closed = open' := by
  have alike : pieces = more := by
    rw [← fields_joined closes apart, ← fields_joined closesToo apartToo, same]
  refine ⟨alike, ?_⟩
  rw [joined_eq closes, joined_eq closesToo, alike] at same
  have ends := List.append_cancel_left same
  cases closed with
  | false =>
      cases open' with
      | false => rfl
      | true => cases ends
  | true =>
      cases open' with
      | false => cases ends
      | true => rfl

/-- A text is its fields, with a mark behind the last or not. -/
theorem joined_fields : ∃ closed, (closed = true → fields mark text ≠ []) ∧
    joined mark (fields mark text) closed = text := by
  have whole : [mark].intercalate (text.splitOn mark) = text := List.intercalate_splitOn mark
  unfold fields
  dsimp only
  split
  next last =>
    obtain ⟨init, split⟩ := List.getLast?_eq_some_iff.mp last
    rw [split] at whole ⊢
    rw [List.dropLast_concat]
    by_cases empty : init = []
    · rw [empty] at whole ⊢
      exact ⟨false, nofun, whole⟩
    · exact ⟨true, fun _ => empty, whole⟩
  next => exact ⟨false, nofun, (congrArg _ (List.append_nil _)).trans whole⟩

end Cuts

end Idsm.Foundation
