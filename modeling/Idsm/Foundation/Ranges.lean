import Idsm.Foundation.Pieces

/-! Merged ranges of positions, and a buffer that is filled through them: what was written
first stays. -/

set_option autoImplicit false

namespace Idsm.Foundation

/-- The position lies in one of the ranges, which end before their second number. -/
def InRanges (ranges : List (Nat × Nat)) (index : Nat) : Prop :=
  ∃ range ∈ ranges, range.1 ≤ index ∧ index < range.2

instance (ranges : List (Nat × Nat)) (index : Nat) : Decidable (InRanges ranges index) :=
  inferInstanceAs (Decidable (∃ range ∈ ranges, range.1 ≤ index ∧ index < range.2))

/-- In order, with a gap between any two. -/
structure Separated (ranges : List (Nat × Nat)) : Prop where
  filled : ∀ range ∈ ranges, range.1 < range.2
  gaps : ranges.Pairwise fun earlier later => earlier.2 < later.1

/-- The ranges before a position, the one of them that reaches it, and those behind. -/
structure RangesAt where
  before : List (Nat × Nat)
  reaching : Option (Nat × Nat)
  after : List (Nat × Nat)

def rangesAt (start : Nat) (ranges : List (Nat × Nat)) : RangesAt :=
  let before := ranges.takeWhile fun range => decide (range.1 < start)
  let after := ranges.dropWhile fun range => decide (range.1 < start)
  match before.getLast? with
  | none => ⟨before, none, after⟩
  | some previous =>
      if start ≤ previous.2 then ⟨before.dropLast, some previous, after⟩
      else ⟨before, none, after⟩

/-- Take in the ranges that begin no later than the end, which moves on with them. -/
def absorb (stop : Nat) : List (Nat × Nat) → Nat × List (Nat × Nat)
  | [] => (stop, [])
  | range :: later =>
      if range.1 ≤ stop then absorb (max stop range.2) later else (stop, range :: later)

def mergeRange (start stop : Nat) (ranges : List (Nat × Nat)) : List (Nat × Nat) :=
  let place := rangesAt start ranges
  match place.reaching with
  | none =>
      let (reached, later) := absorb stop place.after
      place.before ++ (start, reached) :: later
  | some previous =>
      let (reached, later) := absorb (max stop previous.2) place.after
      place.before ++ (min start previous.1, reached) :: later

section Ranges

variable {ranges earlier later : List (Nat × Nat)} {range : Nat × Nat} {start stop index : Nat}

@[simp] theorem inRanges_nil : ¬ InRanges [] index := by
  rintro ⟨_, member, _⟩
  cases member

@[simp] theorem inRanges_append :
    InRanges (earlier ++ later) index ↔ InRanges earlier index ∨ InRanges later index := by
  simp only [InRanges, List.mem_append, or_and_right, exists_or]

@[simp] theorem inRanges_cons :
    InRanges (range :: later) index ↔ range.1 ≤ index ∧ index < range.2 ∨ InRanges later index := by
  simp only [InRanges, List.mem_cons, or_and_right, exists_or, exists_eq_left]

theorem Separated.sublist {fewer : List (Nat × Nat)} (separated : Separated ranges)
    (sub : fewer.Sublist ranges) : Separated fewer where
  filled range member := separated.filled range (sub.subset member)
  gaps := separated.gaps.sublist sub

/-- Where the position stands among separated ranges. -/
structure RangesAt.Divides (place : RangesAt) (start : Nat) (ranges : List (Nat × Nat)) : Prop where
  all : place.before ++ (place.reaching.toList ++ place.after) = ranges
  before : ∀ range ∈ place.before, range.2 < start
  reaching : ∀ previous, place.reaching = some previous → previous.1 < start ∧ start ≤ previous.2
  after : ∀ range ∈ place.after, start ≤ range.1

theorem rangesAt_divides (separated : Separated ranges) :
    (rangesAt start ranges).Divides start ranges := by
  have split : (ranges.takeWhile fun range => decide (range.1 < start)) ++
      (ranges.dropWhile fun range => decide (range.1 < start)) = ranges :=
    List.takeWhile_append_dropWhile
  have behind : ∀ range ∈ ranges.dropWhile (fun range => decide (range.1 < start)),
      start ≤ range.1 := by
    intro range member
    cases rest : ranges.dropWhile fun range => decide (range.1 < start) with
    | nil =>
        rw [rest] at member
        cases member
    | cons first others =>
        have sorted : Separated (first :: others) :=
          rest ▸ separated.sublist (List.dropWhile_sublist _)
        have stays : start ≤ first.1 := by
          have head := List.head?_dropWhile_not (fun range => decide (range.1 < start)) ranges
          rw [rest] at head
          simpa using head
        rw [rest] at member
        rcases List.mem_cons.mp member with rfl | member
        · exact stays
        · have gap := (List.pairwise_cons.mp sorted.gaps).1 range member
          have filled := sorted.filled first List.mem_cons_self
          omega
  have front : ∀ range ∈ ranges.takeWhile (fun range => decide (range.1 < start)),
      range.1 < start := by
    intro range member
    simpa using List.mem_takeWhile_imp member
  have sorted : Separated (ranges.takeWhile fun range => decide (range.1 < start)) :=
    separated.sublist (List.takeWhile_sublist _)
  unfold rangesAt
  dsimp only
  split
  next none_before =>
    rw [List.getLast?_eq_none_iff] at none_before
    exact ⟨split, by simp [none_before], nofun, behind⟩
  next previous last =>
    obtain ⟨others, shape⟩ := List.getLast?_eq_some_iff.mp last
    rw [shape] at sorted front split ⊢
    have gap : ∀ range ∈ others, range.2 < previous.1 := fun range member =>
      (List.pairwise_append.mp sorted.gaps).2.2 range member previous List.mem_cons_self
    have began := front previous (by simp)
    have filled := sorted.filled previous (by simp)
    split
    next reaches =>
      refine ⟨by simpa using split, fun range member => ?_, fun range same => ?_, behind⟩
      · rw [List.dropLast_concat] at member
        have := gap range member
        omega
      · obtain rfl := Option.some.inj same
        exact ⟨began, reaches⟩
    next short =>
      refine ⟨by simpa using split, fun range member => ?_, nofun, behind⟩
      rcases List.mem_append.mp member with member | member
      · have := gap range member
        omega
      · obtain rfl := List.mem_singleton.mp member
        omega

/-- What the ranges that are taken in cover besides. -/
theorem absorb_covers {after : List (Nat × Nat)} (forward : start ≤ stop)
    (behind : ∀ range ∈ after, start ≤ range.1) :
    start ≤ index ∧ index < (absorb stop after).1 ∨ InRanges (absorb stop after).2 index ↔
      start ≤ index ∧ index < stop ∨ InRanges after index := by
  induction after generalizing stop with
  | nil => rfl
  | cons range after ih =>
      have onward := behind range List.mem_cons_self
      rw [absorb]
      split
      next reached =>
        rw [ih (by omega) fun other member => behind other (List.mem_cons_of_mem _ member),
          inRanges_cons]
        constructor
        · rintro (within | within)
          · by_cases old : index < stop
            · exact .inl ⟨within.1, old⟩
            · exact .inr (.inl ⟨by omega, by omega⟩)
          · exact .inr (.inr within)
        · rintro (within | within | within)
          · exact .inl ⟨within.1, by omega⟩
          · exact .inl ⟨by omega, by omega⟩
          · exact .inr within
      next => rfl

theorem absorb_separated {after : List (Nat × Nat)} (separated : Separated after) :
    stop ≤ (absorb stop after).1 ∧ (absorb stop after).2 <:+ after ∧
      ∀ range ∈ (absorb stop after).2, (absorb stop after).1 < range.1 := by
  induction after generalizing stop with
  | nil => exact ⟨Nat.le_refl _, List.suffix_rfl, nofun⟩
  | cons range after ih =>
      have others := separated.sublist (List.sublist_cons_self _ _)
      rw [absorb]
      split
      next reached =>
        obtain ⟨onward, suffix, gap⟩ := @ih (max stop range.2) others
        exact ⟨by omega, suffix.trans (List.suffix_cons _ _), gap⟩
      next apart =>
        refine ⟨Nat.le_refl _, List.suffix_rfl, fun other member => ?_⟩
        rcases List.mem_cons.mp member with rfl | member
        · omega
        · have gap := (List.pairwise_cons.mp separated.gaps).1 other member
          have filled := separated.filled range List.mem_cons_self
          dsimp only
          omega

theorem inRanges_mergeRange (separated : Separated ranges) (forward : start ≤ stop) :
    InRanges (mergeRange start stop ranges) index ↔
      InRanges ranges index ∨ start ≤ index ∧ index < stop := by
  obtain ⟨all, before, reaching, after⟩ := @rangesAt_divides ranges start separated
  have behind : InRanges ranges index ↔ InRanges (rangesAt start ranges).before index ∨
      InRanges (rangesAt start ranges).reaching.toList index ∨
      InRanges (rangesAt start ranges).after index := by
    rw [← inRanges_append, ← inRanges_append, all]
  rw [behind, mergeRange]
  dsimp only
  split
  next here =>
    rw [inRanges_append, inRanges_cons, absorb_covers forward after, here]
    simp only [Option.toList_none, inRanges_nil, false_or]
    grind
  next previous here =>
    obtain ⟨began, reaches⟩ := reaching previous here
    have least : min start previous.1 = previous.1 := by omega
    rw [inRanges_append, inRanges_cons, least,
      @absorb_covers previous.1 _ _ _ (by omega) fun range member => by
        have := after range member
        omega, here]
    simp only [Option.toList_some, inRanges_cons, inRanges_nil, or_false]
    have joined : previous.1 ≤ index ∧ index < max stop previous.2 ↔
        (previous.1 ≤ index ∧ index < previous.2) ∨ start ≤ index ∧ index < stop := by
      omega
    rw [joined]
    grind

theorem Separated.mergeRange (separated : Separated ranges) (forward : start < stop) :
    Separated (mergeRange start stop ranges) := by
  obtain ⟨all, before, reaching, after⟩ := @rangesAt_divides ranges start separated
  have whole : Separated ((rangesAt start ranges).before ++
      ((rangesAt start ranges).reaching.toList ++ (rangesAt start ranges).after)) :=
    all.symm ▸ separated
  obtain ⟨beforeGaps, restGaps, across⟩ := List.pairwise_append.mp whole.gaps
  have afterSeparated : Separated (rangesAt start ranges).after :=
    whole.sublist ((List.sublist_append_right _ _).trans (List.sublist_append_right _ _))
  have insert : ∀ first last, first < last →
      (∀ range ∈ (rangesAt start ranges).before, range.2 < first) →
      Separated ((rangesAt start ranges).before ++
        (first, (absorb last (rangesAt start ranges).after).1) ::
          (absorb last (rangesAt start ranges).after).2) := by
    intro first last ordered clear
    obtain ⟨onward, suffix, gap⟩ := @absorb_separated last _ afterSeparated
    constructor
    · intro range member
      rcases List.mem_append.mp member with member | member
      · exact whole.filled range (List.mem_append_left _ member)
      · rcases List.mem_cons.mp member with rfl | member
        · dsimp only
          omega
        · exact afterSeparated.filled range (suffix.subset member)
    · refine List.pairwise_append.mpr ⟨beforeGaps, List.pairwise_cons.mpr
        ⟨gap, afterSeparated.gaps.sublist suffix.sublist⟩, fun range member other behind => ?_⟩
      have ends := clear range member
      rcases List.mem_cons.mp behind with rfl | behind
      · exact ends
      · have := gap other behind
        omega
  rw [Foundation.mergeRange]
  dsimp only
  split
  next here => exact insert start stop forward before
  next previous here =>
    obtain ⟨began, reaches⟩ := reaching previous here
    have least : min start previous.1 = previous.1 := by omega
    rw [least]
    refine insert previous.1 (max stop previous.2) (by omega) fun range member => ?_
    exact across range member previous (by simp [here])

/-- Where nothing is missing before a covered place there is one range. -/
theorem Separated.eq_interval (separated : Separated ranges) (some : ranges ≠ [])
    (gapless : ∀ index, InRanges ranges index → ∀ earlier ≤ index, InRanges ranges earlier) :
    ∃ reach, ranges = [(0, reach)] := by
  cases ranges with
  | nil => exact absurd rfl some
  | cons first others =>
      have gap := (List.pairwise_cons.mp separated.gaps).1
      have filled := separated.filled first List.mem_cons_self
      have begins : first.1 = 0 := by
        have here : InRanges (first :: others) first.1 :=
          ⟨first, List.mem_cons_self, Nat.le_refl _, filled⟩
        obtain ⟨range, member, low, high⟩ := gapless first.1 here 0 (Nat.zero_le _)
        rcases List.mem_cons.mp member with rfl | member
        · omega
        · have := gap range member
          omega
      have alone : others = [] := by
        rw [List.eq_nil_iff_forall_not_mem]
        intro other behind
        have apart := gap other behind
        have there : InRanges (first :: others) other.1 :=
          ⟨other, List.mem_cons_of_mem _ behind, Nat.le_refl _,
            separated.filled other (List.mem_cons_of_mem _ behind)⟩
        obtain ⟨range, member, low, high⟩ := gapless other.1 there first.2 (Nat.le_of_lt apart)
        rcases List.mem_cons.mp member with rfl | member
        · omega
        · have := gap range member
          omega
      exact ⟨first.2, by rw [alone, ← begins]⟩

/-- All of a length is covered by one range. -/
theorem Separated.eq_singleton {length : Nat} (separated : Separated ranges) (some : 0 < length)
    (full : ∀ index < length, InRanges ranges index)
    (within : ∀ range ∈ ranges, range.2 ≤ length) : ranges = [(0, length)] := by
  have something : ranges ≠ [] := by
    rintro rfl
    exact absurd (full 0 some) inRanges_nil
  obtain ⟨reach, rfl⟩ := separated.eq_interval something fun index ⟨range, member, _, high⟩ earlier
    before => full earlier (by have := within range member; omega)
  have bounded := within (0, reach) List.mem_cons_self
  obtain ⟨range, member, _, high⟩ := full (length - 1) (by omega)
  obtain rfl := List.mem_singleton.mp member
  have exact : reach = length := by
    dsimp only at bounded high
    omega
  rw [exact]

end Ranges

section Filling

variable {α : Type}

/-- The bytes over those that stand at the position. -/
def overwrite (buf : List α) (position : Nat) (data : List α) : List α :=
  buf.take position ++ data ++ buf.drop (position + data.length)

/-- What a piece that starts at `start` holds between two positions. -/
def copyGap (start : Nat) (data : List α) (cursor stop : Nat) (buf : List α) : List α :=
  if cursor < stop then
    overwrite buf cursor ((data.drop (cursor - start)).take (stop - cursor))
  else buf

/-- The piece between the ranges, from the cursor on. -/
def copyGaps (start : Nat) (data : List α) (stop : Nat) :
    (ranges : List (Nat × Nat)) → (cursor : Nat) → List α → List α
  | [], cursor, buf => copyGap start data cursor stop buf
  | range :: later, cursor, buf =>
      if range.1 < stop then
        copyGaps start data stop later (max cursor range.2)
          (copyGap start data cursor range.1 buf)
      else copyGap start data cursor stop buf

/-- A piece in the places that no range covers. -/
def fillGaps (start : Nat) (data : List α) (ranges : List (Nat × Nat)) (buf : List α) : List α :=
  let place := rangesAt start ranges
  copyGaps start data (start + data.length) (place.reaching.toList ++ place.after) start buf

variable {buf data : List α} {ranges : List (Nat × Nat)} {start stop cursor position index : Nat}

theorem length_overwrite (fits : position + data.length ≤ buf.length) :
    (overwrite buf position data).length = buf.length := by
  simp only [overwrite, List.length_append, List.length_take, List.length_drop]
  omega

theorem getElem?_overwrite (fits : position + data.length ≤ buf.length) :
    (overwrite buf position data)[index]? =
      if position ≤ index ∧ index < position + data.length then data[index - position]?
      else buf[index]? := by
  have front : (buf.take position).length = position := by
    rw [List.length_take]
    omega
  rw [overwrite, List.append_assoc]
  by_cases early : index < position
  · rw [List.getElem?_append_left (by omega), List.getElem?_take_of_lt early, if_neg (by omega)]
  · rw [List.getElem?_append_right (by omega), front]
    by_cases within : index < position + data.length
    · rw [List.getElem?_append_left (by omega), if_pos ⟨by omega, within⟩]
    · rw [List.getElem?_append_right (by omega), List.getElem?_drop, if_neg (by omega)]
      congr 1
      omega

theorem length_copyGap (fits : stop ≤ buf.length) :
    (copyGap start data cursor stop buf).length = buf.length := by
  unfold copyGap
  split
  next gap =>
    refine length_overwrite ?_
    rw [List.length_take, List.length_drop]
    omega
  next => rfl

theorem getElem?_copyGap (bounded : stop ≤ start + data.length) (within : start ≤ cursor)
    (fits : stop ≤ buf.length) :
    (copyGap start data cursor stop buf)[index]? =
      if cursor ≤ index ∧ index < stop then data[index - start]? else buf[index]? := by
  unfold copyGap
  split
  next gap =>
    have length : ((data.drop (cursor - start)).take (stop - cursor)).length = stop - cursor := by
      rw [List.length_take, List.length_drop]
      omega
    rw [getElem?_overwrite (by omega), length]
    by_cases copied : cursor ≤ index ∧ index < stop
    · rw [if_pos ⟨copied.1, by omega⟩, if_pos copied, List.getElem?_take_of_lt (by omega),
        List.getElem?_drop]
      congr 1
      omega
    · rw [if_neg (by omega), if_neg copied]
  next empty => rw [if_neg (by omega)]

theorem length_copyGaps (fits : stop ≤ buf.length) :
    (copyGaps start data stop ranges cursor buf).length = buf.length := by
  induction ranges generalizing cursor buf with
  | nil => exact length_copyGap fits
  | cons range ranges ih =>
      rw [copyGaps]
      split
      next early =>
        have copied := @length_copyGap _ buf data start range.1 cursor (by omega)
        rw [ih (by omega), copied]
      next => exact length_copyGap fits

theorem getElem?_copyGaps (separated : Separated ranges) (bounded : stop ≤ start + data.length)
    (within : start ≤ cursor) (fits : stop ≤ buf.length) :
    ((cursor ≤ index ∧ index < stop ∧ ¬ InRanges ranges index) →
      (copyGaps start data stop ranges cursor buf)[index]? = data[index - start]?) ∧
    (¬ (cursor ≤ index ∧ index < stop ∧ ¬ InRanges ranges index) →
      (copyGaps start data stop ranges cursor buf)[index]? = buf[index]?) := by
  induction ranges generalizing cursor buf with
  | nil =>
      rw [copyGaps, getElem?_copyGap bounded within fits]
      constructor
      · intro copied
        exact if_pos ⟨copied.1, copied.2.1⟩
      · intro kept
        exact if_neg fun copied => kept ⟨copied.1, copied.2, inRanges_nil⟩
  | cons range ranges ih =>
      have filled := separated.filled range List.mem_cons_self
      have later : ∀ place, InRanges ranges place → range.2 < place := by
        rintro place ⟨other, member, low, _⟩
        have gap := (List.pairwise_cons.mp separated.gaps).1 other member
        omega
      have missed : index ≤ range.2 → ¬ InRanges ranges index := fun low covered => by
        have := later index covered
        omega
      rw [copyGaps]
      split
      next early =>
        have length := @length_copyGap _ buf data start range.1 cursor (by omega)
        have one := @getElem?_copyGap _ buf data start range.1 cursor index (by omega) within
          (by omega)
        obtain ⟨copied, kept⟩ := @ih (copyGap start data cursor range.1 buf) (max cursor range.2)
          (separated.sublist (List.sublist_cons_self _ _)) (by omega) (by omega)
        by_cases beyond : max cursor range.2 ≤ index ∧ index < stop ∧ ¬ InRanges ranges index
        · have free : ¬ InRanges (range :: ranges) index := by
            rw [inRanges_cons]
            rintro (inside | inside)
            · omega
            · exact beyond.2.2 inside
          refine ⟨fun _ => copied beyond, fun kept => absurd ⟨by omega, beyond.2.1, free⟩ kept⟩
        · rw [kept beyond, one]
          constructor
          · rintro ⟨low, high, free⟩
            rw [inRanges_cons, not_or] at free
            refine if_pos ⟨low, ?_⟩
            by_contra late
            exact beyond ⟨by omega, high, free.2⟩
          · intro elsewhere
            refine if_neg fun gap => elsewhere ⟨gap.1, by omega, ?_⟩
            rw [inRanges_cons]
            rintro (inside | inside)
            · omega
            · exact missed (by omega) inside
      next far =>
        rw [getElem?_copyGap bounded within fits]
        have free : index < stop → ¬ InRanges (range :: ranges) index := by
          intro high
          rw [inRanges_cons]
          rintro (inside | inside)
          · omega
          · exact missed (by omega) inside
        constructor
        · intro copied
          exact if_pos ⟨copied.1, copied.2.1⟩
        · intro kept
          exact if_neg fun copied => kept ⟨copied.1, copied.2, free copied.2⟩

theorem getElem?_fillGaps (separated : Separated ranges)
    (fits : start + data.length ≤ buf.length) :
    (fillGaps start data ranges buf)[index]? =
      if start ≤ index ∧ index < start + data.length ∧ ¬ InRanges ranges index then
        data[index - start]?
      else buf[index]? := by
  have places := @rangesAt_divides ranges start separated
  have behind : ∀ place, start ≤ place → (InRanges ranges place ↔
      InRanges ((rangesAt start ranges).reaching.toList ++ (rangesAt start ranges).after)
        place) := by
    intro place onward
    have outside : ¬ InRanges (rangesAt start ranges).before place := by
      rintro ⟨range, member, low, high⟩
      have := places.before range member
      omega
    conv_lhs => rw [← places.all]
    rw [inRanges_append, or_iff_right outside]
  have rest : Separated ((rangesAt start ranges).reaching.toList ++
      (rangesAt start ranges).after) := by
    refine separated.sublist ?_
    conv_rhs => rw [← places.all]
    exact List.sublist_append_right _ _
  obtain ⟨copied, kept⟩ := @getElem?_copyGaps _ buf data _ start (start + data.length) start index
    rest (Nat.le_refl _) (Nat.le_refl _) fits
  split
  next free => exact copied ⟨free.1, free.2.1, fun inside => free.2.2 ((behind _ free.1).mpr inside)⟩
  next taken =>
    exact kept fun free => taken ⟨free.1, free.2.1, fun inside =>
      free.2.2 ((behind _ free.1).mp inside)⟩

end Filling

section Assembling

variable {α : Type} {stream buf data : List α} {ranges : List (Nat × Nat)} {start : Nat}

/-- The buffer holds the stream wherever it is covered. -/
structure Assembled (stream buf : List α) (ranges : List (Nat × Nat)) : Prop where
  separated : Separated ranges
  covered : ∀ index, InRanges ranges index → index < buf.length
  bounded : buf.length ≤ stream.length
  agrees : ∀ index, InRanges ranges index → buf[index]? = stream[index]?

theorem assembled_nil : Assembled stream [] [] where
  separated := ⟨nofun, .nil⟩
  covered _ inside := absurd inside inRanges_nil
  bounded := Nat.zero_le _
  agrees _ inside := absurd inside inRanges_nil

theorem Assembled.extend (assembled : Assembled stream buf ranges) {more : List α}
    (bounded : (buf ++ more).length ≤ stream.length) : Assembled stream (buf ++ more) ranges where
  separated := assembled.separated
  covered index inside := by
    have := assembled.covered index inside
    rw [List.length_append]
    omega
  bounded := bounded
  agrees index inside := by
    rw [List.getElem?_append_left (assembled.covered index inside)]
    exact assembled.agrees index inside

theorem Assembled.put (assembled : Assembled stream buf ranges)
    (stands : StandsAt stream start data) (something : data ≠ [])
    (fits : start + data.length ≤ buf.length) :
    Assembled stream (fillGaps start data ranges buf)
      (mergeRange start (start + data.length) ranges) := by
  have forward := List.length_pos_iff.mpr something
  have length : (fillGaps start data ranges buf).length = buf.length := length_copyGaps fits
  refine ⟨assembled.separated.mergeRange (by omega), fun index inside => ?_, ?_,
    fun index inside => ?_⟩
  · rw [inRanges_mergeRange assembled.separated (by omega)] at inside
    rw [length]
    rcases inside with inside | inside
    · exact assembled.covered index inside
    · omega
  · rw [length]
    exact assembled.bounded
  · rw [inRanges_mergeRange assembled.separated (by omega)] at inside
    rw [getElem?_fillGaps assembled.separated fits]
    split
    next copied =>
      have here := congrArg (fun held : List α => held[index - start]?) stands.eq_take
      rw [here, List.getElem?_take_of_lt (by omega), List.getElem?_drop]
      congr 1
      omega
    next kept =>
      refine assembled.agrees index ?_
      by_contra free
      have within := inside.resolve_left free
      exact kept ⟨within.1, within.2, free⟩

/-- Once all is covered the buffer is the stream. -/
theorem Assembled.complete (assembled : Assembled stream buf ranges) (something : stream ≠ [])
    (full : ∀ index < stream.length, InRanges ranges index) :
    ranges = [(0, stream.length)] ∧ buf = stream := by
  have positive := List.length_pos_iff.mpr something
  have last := assembled.covered (stream.length - 1) (full _ (by omega))
  have bounded := assembled.bounded
  constructor
  · refine assembled.separated.eq_singleton positive full fun range member => ?_
    have filled := assembled.separated.filled range member
    have := assembled.covered (range.2 - 1) ⟨range, member, by omega, by omega⟩
    omega
  · refine List.ext_getElem? fun index => ?_
    by_cases within : index < stream.length
    · exact assembled.agrees index (full index within)
    · rw [List.getElem?_eq_none (by omega), List.getElem?_eq_none (by omega)]

end Assembling

end Idsm.Foundation
