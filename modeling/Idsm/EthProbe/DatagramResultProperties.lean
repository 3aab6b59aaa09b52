import Idsm.EthProbe.IpDefragProperties

/-! When a datagram is complete, and with which bytes, for fragments that may overlap. -/

set_option autoImplicit false

namespace Idsm.EthProbe

open Idsm.Foundation

section Gathering

instance (piece : Piece) (index : Nat) : Decidable (piece.Covers index) :=
  inferInstanceAs (Decidable (_ ∧ _))

/-- The byte of the piece that came first among those that cover the position. -/
def firstByte (pieces : List Piece) (index : Nat) : Option UInt8 :=
  (pieces.find? fun piece => decide (piece.Covers index)).bind fun piece =>
    piece.data[index - piece.start]?

/-- A last fragment has been seen, and every byte up to its end. -/
def Finished (total : Nat) (pieces : List Piece) : Prop :=
  (∃ piece ∈ pieces, piece.more = false) ∧
    ∀ index < total, ∃ piece ∈ pieces, piece.Covers index

instance (total : Nat) (pieces : List Piece) : Decidable (Finished total pieces) :=
  inferInstanceAs (Decidable (_ ∧ ∀ index < total, ∃ piece ∈ pieces, piece.Covers index))

/-- Nothing is missing before a byte that has been seen. -/
def Gapless (pieces : List Piece) : Prop :=
  ∀ piece ∈ pieces, ∀ index, piece.Covers index → ∀ earlier ≤ index,
    ∃ other ∈ pieces, other.Covers earlier

/-- What a datagram holds after pieces that may overlap. -/
structure Gathered (total : Nat) (pieces : List Piece) (dg : Datagram) : Prop where
  separated : Separated dg.covered
  covered : ∀ index, InRanges dg.covered index ↔ ∃ piece ∈ pieces, piece.Covers index
  inside : ∀ index, InRanges dg.covered index → index < dg.buf.length
  bytes : ∀ index, InRanges dg.covered index → dg.buf[index]? = firstByte pieces index
  haveLast : dg.haveLast = true ↔ ∃ piece ∈ pieces, piece.more = false
  totalLen : dg.haveLast = true → dg.totalLen = total

theorem gathered_fresh (total : Nat) : Gathered total [] .fresh where
  separated := ⟨nofun, .nil⟩
  covered index := by simp [Datagram.fresh]
  inside index held := absurd held inRanges_nil
  bytes index held := absurd held inRanges_nil
  haveLast := by simp [Datagram.fresh]
  totalLen := nofun

variable {total : Nat} {pieces : List Piece} {piece : Piece} {dg : Datagram} {index : Nat}

theorem firstByte_append :
    firstByte (pieces ++ [piece]) index =
      if ∃ earlier ∈ pieces, earlier.Covers index then firstByte pieces index
      else if piece.Covers index then piece.data[index - piece.start]? else none := by
  unfold firstByte
  rw [List.find?_append]
  cases found : pieces.find? fun piece => decide (piece.Covers index) with
  | some earlier =>
      have covers : earlier.Covers index := by
        simpa using List.find?_some found
      rw [if_pos ⟨earlier, List.mem_of_find?_eq_some found, covers⟩]
      rfl
  | none =>
      have missed : ¬ ∃ earlier ∈ pieces, earlier.Covers index := by
        intro ⟨earlier, member, covers⟩
        exact List.find?_eq_none.mp found earlier member (decide_eq_true covers)
      rw [if_neg missed]
      by_cases covers : piece.Covers index
      · simp [covers]
      · simp [covers]

/-- A piece adds the bytes that no earlier one covers. -/
theorem Gathered.put {nowMs : UInt64} (gathered : Gathered total pieces dg)
    (something : piece.data ≠ [])
    (lastEnd : piece.more = false → piece.start + piece.data.length = total) :
    Gathered total (pieces ++ [piece])
      ((dg.seen nowMs).put piece.start piece.data piece.more) := by
  have positive := List.length_pos_iff.mpr something
  -- The buffer with room for the piece; what was there is in front.
  obtain ⟨grown, grownEq⟩ : ∃ grown, grown =
      dg.buf ++ List.replicate (dg.grow piece.start piece.data.length) (0 : UInt8) := ⟨_, rfl⟩
  have filled : ((dg.seen nowMs).put piece.start piece.data piece.more).buf =
      fillGaps piece.start piece.data dg.covered grown := by
    rw [grownEq]
    rfl
  have kept (place : Nat) (before : place < dg.buf.length) :
      place < grown.length ∧ grown[place]? = dg.buf[place]? := by
    rw [grownEq, List.length_append, List.getElem?_append_left before]
    exact ⟨by omega, rfl⟩
  have room : piece.start + piece.data.length ≤ grown.length := by
    rw [grownEq, List.length_append, List.length_replicate, Datagram.grow]
    omega
  have merged (place : Nat) : InRanges (mergeRange piece.start (piece.start + piece.data.length)
      dg.covered) place ↔ InRanges dg.covered place ∨ piece.Covers place :=
    inRanges_mergeRange gathered.separated (by omega)
  have length : (fillGaps piece.start piece.data dg.covered grown).length = grown.length :=
    length_copyGaps room
  refine ⟨gathered.separated.mergeRange (by omega), fun place => ?_, fun place held => ?_,
    fun place held => ?_, ?_, fun last => ?_⟩
  · change InRanges (mergeRange _ _ dg.covered) place ↔ _
    rw [merged, gathered.covered]
    simp [or_and_right, exists_or]
  · rw [filled, length]
    rcases (merged place).mp held with before | covers
    · exact (kept place (gathered.inside place before)).1
    · exact Nat.lt_of_lt_of_le covers.2 room
  · rw [filled, getElem?_fillGaps gathered.separated room, firstByte_append]
    by_cases before : InRanges dg.covered place
    · rw [if_neg fun free => free.2.2 before, if_pos ((gathered.covered place).mp before),
        (kept place (gathered.inside place before)).2]
      exact gathered.bytes place before
    · have covers := ((merged place).mp held).resolve_left before
      rw [if_pos ⟨covers.1, covers.2, before⟩, if_neg (mt (gathered.covered place).mpr before),
        if_pos covers]
  · change (!piece.more || dg.haveLast) = true ↔ _
    rw [Bool.or_eq_true, gathered.haveLast]
    simp [or_and_right, exists_or, or_comm]
  · change (if piece.more then dg.totalLen else _) = _
    cases more : piece.more with
    | true =>
        refine gathered.totalLen ?_
        change (!piece.more || dg.haveLast) = true at last
        rwa [more] at last
    | false => exact lastEnd more

/-- The datagram counts as complete when besides nothing is missing up to any byte seen. -/
theorem Gathered.complete_iff (gathered : Gathered total pieces dg)
    (positive : (∃ piece ∈ pieces, piece.more = false) → 0 < total) :
    dg.complete = true ↔ Finished total pieces ∧ Gapless pieces := by
  constructor
  · intro complete
    rw [Datagram.complete, Bool.and_eq_true] at complete
    obtain ⟨last, single⟩ := complete
    split at single
    next reach shape =>
      have length := gathered.totalLen last
      have bound := of_decide_eq_true single
      have inside (place : Nat) : place < reach ↔ ∃ piece ∈ pieces, piece.Covers place := by
        rw [← gathered.covered, shape]
        simp
      refine ⟨⟨gathered.haveLast.mp last, fun place early => (inside place).mp (by omega)⟩, ?_⟩
      intro piece member place covers earlier before
      have := (inside place).mpr ⟨piece, member, covers⟩
      exact (inside earlier).mp (by omega)
    next => cases single
  · rintro ⟨⟨last, full⟩, gapless⟩
    have some := positive last
    have haveLast := gathered.haveLast.mpr last
    have held := (gathered.covered 0).mpr (full 0 some)
    have something : dg.covered ≠ [] := by
      intro none
      rw [none] at held
      exact inRanges_nil held
    obtain ⟨reach, shape⟩ := gathered.separated.eq_interval something fun place inside earlier
      before => by
        obtain ⟨piece, member, covers⟩ := (gathered.covered place).mp inside
        exact (gathered.covered earlier).mpr (gapless piece member place covers earlier before)
    have reached : total ≤ reach := by
      have final := (gathered.covered (total - 1)).mpr (full (total - 1) (by omega))
      rw [shape] at final
      simp only [inRanges_cons, inRanges_nil, or_false] at final
      omega
    rw [Datagram.complete, haveLast, shape, gathered.totalLen haveLast]
    simpa using reached

/-- A finished datagram holds the bytes that came first. -/
theorem Gathered.datagram (gathered : Gathered total pieces dg)
    (finished : Finished total pieces) :
    (dg.buf.take dg.totalLen).length = total ∧
      ∀ place < total, (dg.buf.take dg.totalLen)[place]? = firstByte pieces place := by
  obtain ⟨last, full⟩ := finished
  have held (place : Nat) (early : place < total) : InRanges dg.covered place :=
    (gathered.covered place).mpr (full place early)
  rw [gathered.totalLen (gathered.haveLast.mpr last)]
  constructor
  · rw [List.length_take]
    by_cases some : total = 0
    · omega
    · have := gathered.inside (total - 1) (held _ (by omega))
      omega
  · intro place early
    rw [List.getElem?_take_of_lt early]
    exact gathered.bytes place (held place early)

end Gathering

section Runs

/-- A fragment that the reassembly is fed; the sum of its offset and length does not wrap. -/
structure Fragment where
  pp : ParsedPacket
  nowMs : UInt64
  short : pp.l4Data.length + maxDatagramLen < 2 ^ 32

/-- What is taken of a fragment. -/
def Fragment.piece (fragment : Fragment) : Option Piece :=
  if fragment.pp.l4Data = [] ∨ maxDatagramLen ≤ fragment.pp.fragOffset then none
  else some ⟨fragment.pp.fragOffset,
    fragment.pp.l4Data.take (fragLen fragment.pp.fragOffset fragment.pp.l4Data.length),
    fragment.pp.fragMore⟩

def piecesOf (fragments : List Fragment) : List Piece := fragments.filterMap Fragment.piece

def stateAfter (cfg : DefragConfig) (state : IpDefrag) (fragments : List Fragment) : IpDefrag :=
  fragments.foldl (fun state fragment =>
    (addFragment cfg state fragment.pp fragment.pp.l4Data fragment.nowMs).1) state

/-- The result of a fragment that comes after others. -/
def resultAfter (cfg : DefragConfig) (state : IpDefrag) (before : List Fragment)
    (fragment : Fragment) : DefragResult :=
  (addFragment cfg (stateAfter cfg state before) fragment.pp fragment.pp.l4Data
    fragment.nowMs).2

/-- The fragments belong to one datagram, and none of them makes another give way. -/
structure Unevicted (cfg : DefragConfig) (state : IpDefrag) (key : FragKey)
    (fragments : List Fragment) : Prop where
  absent : state.find key = none
  ofKey : ∀ fragment ∈ fragments, fragment.pp.fragKey = key
  admitted : ∀ before fragment after, fragments = before ++ fragment :: after →
    fragment.piece ≠ none → Admitted cfg (stateAfter cfg state before) fragment.pp

/-- There is one end of last fragments. -/
def OneEnd (total : Nat) (fragments : List Fragment) : Prop :=
  ∀ piece ∈ piecesOf fragments, piece.more = false → piece.start + piece.data.length = total

variable {cfg : DefragConfig} {state : IpDefrag} {key : FragKey} {total : Nat}
  {fragments before after : List Fragment} {fragment : Fragment} {piece : Piece}

theorem piecesOf_concat :
    piecesOf (before ++ [fragment]) = piecesOf before ++ fragment.piece.toList := by
  rw [piecesOf, List.filterMap_append, ← piecesOf]
  cases taken : fragment.piece with
  | none => simp [taken]
  | some piece => simp [taken]

theorem piece_something (taken : fragment.piece = some piece) : piece.data ≠ [] := by
  unfold Fragment.piece at taken
  split at taken
  next => cases taken
  next something =>
    obtain rfl := Option.some.inj taken
    obtain ⟨filled, inside⟩ := not_or.mp something
    have positive := List.length_pos_iff.mpr filled
    have short := fragment.short
    have long : 0 < fragLen fragment.pp.fragOffset fragment.pp.l4Data.length := by
      unfold maxDatagramLen at short inside
      rw [fragLen, Nat.mod_eq_of_lt (by omega), Nat.mod_eq_of_lt (by omega), maxDatagramLen]
      split <;> omega
    apply List.ne_nil_of_length_pos
    rw [List.length_take]
    omega

theorem Finished.mono {pieces more : List Piece} (finished : Finished total pieces)
    (subset : ∀ piece ∈ pieces, piece ∈ more) : Finished total more := by
  obtain ⟨⟨last, member, ends⟩, full⟩ := finished
  refine ⟨⟨last, subset last member, ends⟩, fun index early => ?_⟩
  obtain ⟨piece, held, covers⟩ := full index early
  exact ⟨piece, subset piece held, covers⟩

theorem not_finished_nil : ¬ Finished total [] := fun ⟨⟨_, member, _⟩, _⟩ => nomatch member

theorem addFragment_untaken (untaken : fragment.piece = none) (state : IpDefrag) :
    addFragment cfg state fragment.pp fragment.pp.l4Data fragment.nowMs =
      (state, ⟨false, false, []⟩) := by
  unfold Fragment.piece at untaken
  split at untaken
  next skipped => rw [addFragment, if_pos skipped]
  next => cases untaken

theorem addFragment_taken (taken : fragment.piece = some piece)
    (admitted : Admitted cfg state fragment.pp) :
    let dg := ((state.datagram fragment.pp.fragKey).seen fragment.nowMs).put piece.start
      piece.data piece.more
    (addFragment cfg state fragment.pp fragment.pp.l4Data fragment.nowMs).1.find
        fragment.pp.fragKey = (if dg.complete then none else some dg) ∧
      (addFragment cfg state fragment.pp fragment.pp.l4Data fragment.nowMs).2 =
        if dg.complete then ⟨true, false, dg.buf.take dg.totalLen⟩ else ⟨false, false, []⟩ := by
  unfold Fragment.piece at taken
  split at taken
  next => cases taken
  next something =>
    obtain rfl := Option.some.inj taken
    obtain ⟨filled, inside⟩ := not_or.mp something
    have short := Nat.lt_of_not_le inside
    obtain ⟨found, result⟩ :=
      @addFragment_admitted cfg state fragment.pp fragment.nowMs admitted filled short
    have here := found fragment.pp.fragKey
    rw [if_pos rfl] at here
    exact ⟨here, result⟩

theorem stateAfter_concat :
    stateAfter cfg state (before ++ [fragment]) =
      (addFragment cfg (stateAfter cfg state before) fragment.pp fragment.pp.l4Data
        fragment.nowMs).1 := by
  rw [stateAfter, List.foldl_append]
  rfl

theorem OneEnd.positive (oneEnd : OneEnd total fragments) {pieces : List Piece}
    (among : ∀ piece ∈ pieces, piece ∈ piecesOf fragments)
    (last : ∃ piece ∈ pieces, piece.more = false) : 0 < total := by
  obtain ⟨piece, member, ends⟩ := last
  have total := oneEnd piece (among piece member) ends
  obtain ⟨source, _, taken⟩ := List.mem_filterMap.mp (among piece member)
  have := List.length_pos_iff.mpr (piece_something taken)
  omega

theorem piecesOf_front (split : fragments = before ++ after) :
    ∀ piece ∈ piecesOf before, piece ∈ piecesOf fragments := by
  intro piece member
  rw [split, piecesOf, List.filterMap_append]
  exact List.mem_append_left _ member

/-- Until the datagram is finished the table holds what has come of it. -/
theorem gathered_stateAfter (unevicted : Unevicted cfg state key fragments)
    (oneEnd : OneEnd total fragments) (split : fragments = before ++ after)
    (unfinished : ¬ Finished total (piecesOf before)) :
    Gathered total (piecesOf before) ((stateAfter cfg state before).datagram key) := by
  induction before using List.reverseRecOn generalizing after with
  | nil =>
      have none := unevicted.absent
      rw [stateAfter, List.foldl_nil, IpDefrag.datagram, none]
      exact gathered_fresh total
  | append_singleton before fragment ih =>
      have whole : fragments = before ++ fragment :: after := by simpa using split
      have ofKey := unevicted.ofKey fragment (by simp [whole])
      rw [piecesOf_concat] at unfinished ⊢
      have earlier := ih whole fun finished =>
        unfinished (finished.mono fun piece => List.mem_append_left _)
      rw [stateAfter_concat]
      cases taken : fragment.piece with
      | none => rwa [addFragment_untaken taken, Option.toList_none, List.append_nil]
      | some piece =>
          rw [taken, Option.toList_some] at unfinished
          have member : piece ∈ piecesOf fragments :=
            List.mem_filterMap.mpr ⟨fragment, by simp [whole], taken⟩
          have something := piece_something taken
          have gathered := @Gathered.put _ _ _ _ fragment.nowMs earlier something (oneEnd piece member)
          obtain ⟨found, _⟩ := addFragment_taken taken
            (unevicted.admitted before fragment after whole (by simp [taken]))
          have incomplete : ((((stateAfter cfg state before).datagram key).seen
              fragment.nowMs).put piece.start piece.data piece.more).complete = false := by
            apply Bool.eq_false_iff.mpr
            intro complete
            apply unfinished
            apply ((gathered.complete_iff (oneEnd.positive fun other held => ?_)).mp complete).1
            rcases List.mem_append.mp held with held | held
            · exact piecesOf_front whole other held
            · exact List.mem_singleton.mp held ▸ member
          rw [ofKey, incomplete] at found
          rw [Option.toList_some, IpDefrag.datagram, found]
          exact gathered

/-- The bytes that came first, and no more. -/
def HoldsFirst (total : Nat) (pieces : List Piece) (datagram : List UInt8) : Prop :=
  datagram.length = total ∧ ∀ index < total, datagram[index]? = firstByte pieces index

/-- What a fragment completes as long as the datagram was not finished before it. -/
theorem resultAfter_complete (unevicted : Unevicted cfg state key fragments)
    (oneEnd : OneEnd total fragments) (split : fragments = before ++ fragment :: after)
    (unfinished : ¬ Finished total (piecesOf before)) :
    ((resultAfter cfg state before fragment).complete = true ↔
        Finished total (piecesOf (before ++ [fragment])) ∧
          Gapless (piecesOf (before ++ [fragment]))) ∧
      ((resultAfter cfg state before fragment).complete = true →
        HoldsFirst total (piecesOf (before ++ [fragment]))
          (resultAfter cfg state before fragment).datagram) := by
  have earlier := gathered_stateAfter unevicted oneEnd split unfinished
  have ofKey := unevicted.ofKey fragment (by simp [split])
  rw [piecesOf_concat, resultAfter]
  cases taken : fragment.piece with
  | none =>
      rw [addFragment_untaken taken, Option.toList_none, List.append_nil]
      exact ⟨iff_of_false Bool.false_ne_true fun finished => unfinished finished.1,
        fun complete => nomatch complete⟩
  | some piece =>
      have member : piece ∈ piecesOf fragments :=
        List.mem_filterMap.mpr ⟨fragment, by simp [split], taken⟩
      have something := piece_something taken
      have gathered := @Gathered.put _ _ _ _ fragment.nowMs earlier something (oneEnd piece member)
      have decided := gathered.complete_iff (oneEnd.positive fun other held => by
        rcases List.mem_append.mp held with held | held
        · exact piecesOf_front split other held
        · exact List.mem_singleton.mp held ▸ member)
      have result := (addFragment_taken taken
        (unevicted.admitted before fragment after split (by simp [taken]))).2
      rw [ofKey] at result
      rw [result, Option.toList_some]
      cases complete : ((((stateAfter cfg state before).datagram key).seen
          fragment.nowMs).put piece.start piece.data piece.more).complete with
      | false =>
          rw [complete] at decided
          exact ⟨decided, fun complete => nomatch complete⟩
      | true =>
          rw [complete] at decided
          exact ⟨decided, fun _ => gathered.datagram (decided.mp rfl).1⟩

theorem exists_finishing (finished : Finished total (piecesOf fragments)) :
    ∃ before fragment after, fragments = before ++ fragment :: after ∧
      ¬ Finished total (piecesOf before) ∧ Finished total (piecesOf (before ++ [fragment])) := by
  induction fragments using List.reverseRecOn with
  | nil => exact absurd finished not_finished_nil
  | append_singleton others last ih =>
      by_cases sooner : Finished total (piecesOf others)
      · obtain ⟨before, fragment, after, split, unfinished, now⟩ := ih sooner
        exact ⟨before, fragment, after ++ [last], by simp [split], unfinished, now⟩
      · exact ⟨others, last, [], rfl, sooner, finished⟩

theorem finishing_unique {otherBefore otherAfter : List Fragment} {other : Fragment}
    (split : before ++ fragment :: after = otherBefore ++ other :: otherAfter)
    (unfinished : ¬ Finished total (piecesOf before))
    (finished : Finished total (piecesOf (before ++ [fragment])))
    (otherUnfinished : ¬ Finished total (piecesOf otherBefore))
    (otherFinished : Finished total (piecesOf (otherBefore ++ [other]))) :
    before = otherBefore ∧ fragment = other := by
  rcases List.append_eq_append_iff.mp split with ⟨between, front, rest⟩ | ⟨between, front, rest⟩
  · cases between with
    | nil => exact ⟨by simp [front], (List.cons.inj rest).1⟩
    | cons first between =>
        obtain ⟨rfl, _⟩ := List.cons.inj rest
        refine absurd (finished.mono ?_) otherUnfinished
        exact @piecesOf_front _ _ between (by simp [front])
  · cases between with
    | nil => exact ⟨by simp [front], (List.cons.inj rest).1.symm⟩
    | cons first between =>
        obtain ⟨rfl, _⟩ := List.cons.inj rest
        refine absurd (otherFinished.mono ?_) unfinished
        exact @piecesOf_front _ _ between (by simp [front])

end Runs

section Results

variable {cfg : DefragConfig} {state : IpDefrag} {key : FragKey} {total : Nat}
  {fragments : List Fragment}

/-- The first fragment that finishes the datagram completes it, with the bytes that came
first. -/
def Reassembles (cfg : DefragConfig) (state : IpDefrag) (total : Nat)
    (fragments : List Fragment) : Prop :=
  ∀ before fragment after, fragments = before ++ fragment :: after →
    ¬ Finished total (piecesOf before) →
      ((resultAfter cfg state before fragment).complete = true ↔
        Finished total (piecesOf (before ++ [fragment]))) ∧
      ((resultAfter cfg state before fragment).complete = true →
        HoldsFirst total (piecesOf (before ++ [fragment]))
          (resultAfter cfg state before fragment).datagram)

/-- The datagram is what the fragment returns that finishes it. -/
def Delivers (cfg : DefragConfig) (state : IpDefrag) (total : Nat) (fragments : List Fragment)
    (datagram : List UInt8) : Prop :=
  ∃ before fragment after, fragments = before ++ fragment :: after ∧
    ¬ Finished total (piecesOf before) ∧ Finished total (piecesOf (before ++ [fragment])) ∧
    (resultAfter cfg state before fragment).complete = true ∧
    (resultAfter cfg state before fragment).datagram = datagram

def Apart (pieces : List Piece) : Prop :=
  pieces.Pairwise fun one other => ∀ index, one.Covers index → ¬ other.Covers index

/-- Bytes as they came first, and no order of fragments that do not overlap. -/
structure Defragments (cfg : DefragConfig) (state : IpDefrag) (key : FragKey) (total : Nat)
    (fragments : List Fragment) : Prop where
  reassembles : Reassembles cfg state total fragments
  anyOrder : Apart (piecesOf fragments) → ∀ other, other.Perm fragments →
    Unevicted cfg state key other →
      ∀ datagram, Delivers cfg state total other datagram ↔
        Delivers cfg state total fragments datagram

/-- When the datagram is finished nothing is missing before a byte seen, also behind its end. -/
def GaplessWhenFinished (total : Nat) (fragments : List Fragment) : Prop :=
  ∀ before fragment after, fragments = before ++ fragment :: after →
    ¬ Finished total (piecesOf before) → Finished total (piecesOf (before ++ [fragment])) →
      Gapless (piecesOf (before ++ [fragment]))

theorem reassembles_iff (unevicted : Unevicted cfg state key fragments)
    (oneEnd : OneEnd total fragments) :
    Reassembles cfg state total fragments ↔ GaplessWhenFinished total fragments := by
  constructor
  · intro reassembles before fragment after split unfinished finished
    have complete := ((reassembles before fragment after split unfinished).1).mpr finished
    exact ((resultAfter_complete unevicted oneEnd split unfinished).1.mp complete).2
  · intro gapless before fragment after split unfinished
    obtain ⟨decided, holds⟩ := resultAfter_complete unevicted oneEnd split unfinished
    refine ⟨decided.trans ⟨And.left, fun finished => ⟨finished, ?_⟩⟩, holds⟩
    exact gapless before fragment after split unfinished finished

theorem Delivers.holdsFirst (unevicted : Unevicted cfg state key fragments)
    (oneEnd : OneEnd total fragments) {datagram : List UInt8}
    (delivers : Delivers cfg state total fragments datagram) :
    ∃ pieces, (∀ piece ∈ pieces, piece ∈ piecesOf fragments) ∧ Finished total pieces ∧
      HoldsFirst total pieces datagram := by
  obtain ⟨before, fragment, after, split, unfinished, finished, complete, rfl⟩ := delivers
  have front : fragments = (before ++ [fragment]) ++ after := by simp [split]
  exact ⟨piecesOf (before ++ [fragment]), piecesOf_front front, finished,
    (resultAfter_complete unevicted oneEnd split unfinished).2 complete⟩

theorem firstByte_of_apart {all pieces : List Piece} {piece : Piece} {index : Nat}
    (apart : Apart all) (among : ∀ other ∈ pieces, other ∈ all) (member : piece ∈ all)
    (covers : piece.Covers index) (seen : ∃ other ∈ pieces, other.Covers index) :
    firstByte pieces index = piece.data[index - piece.start]? := by
  unfold firstByte
  cases found : pieces.find? fun piece => decide (piece.Covers index) with
  | none =>
      obtain ⟨other, held, also⟩ := seen
      exact absurd (decide_eq_true also) (List.find?_eq_none.mp found other held)
  | some first =>
      have firstCovers : first.Covers index := by simpa using List.find?_some found
      have firstMember := among first (List.mem_of_find?_eq_some found)
      by_cases same : first = piece
      · rw [same]
        rfl
      · have : Std.Symm fun one other : Piece =>
            ∀ index, one.Covers index → ¬ other.Covers index :=
          ⟨fun _ _ clear index covers also => clear index also covers⟩
        exact absurd covers (apart.forall firstMember member same index firstCovers)

theorem OneEnd.perm {other : List Fragment} (oneEnd : OneEnd total fragments)
    (perm : other.Perm fragments) : OneEnd total other := fun piece member =>
  oneEnd piece ((perm.filterMap Fragment.piece).mem_iff.mp member)

/-- Fragments that do not overlap give the same bytes in any order. -/
theorem Delivers.perm {other : List Fragment} {datagram : List UInt8}
    (unevicted : Unevicted cfg state key fragments)
    (otherUnevicted : Unevicted cfg state key other) (oneEnd : OneEnd total fragments)
    (apart : Apart (piecesOf fragments)) (perm : other.Perm fragments)
    (gapless : GaplessWhenFinished total fragments)
    (delivers : Delivers cfg state total other datagram) :
    Delivers cfg state total fragments datagram := by
  have same := perm.filterMap Fragment.piece
  obtain ⟨pieces, among, done, length, bytes⟩ :=
    delivers.holdsFirst otherUnevicted (oneEnd.perm perm)
  have all : Finished total (piecesOf fragments) :=
    done.mono fun piece member => same.mem_iff.mp (among piece member)
  obtain ⟨before, fragment, after, split, unfinished, finished⟩ := exists_finishing all
  obtain ⟨decided, holds⟩ := resultAfter_complete unevicted oneEnd split unfinished
  have complete := decided.mpr ⟨finished, gapless before fragment after split unfinished finished⟩
  obtain ⟨otherLength, otherBytes⟩ := holds complete
  refine ⟨before, fragment, after, split, unfinished, finished, complete, ?_⟩
  apply List.ext_getElem?
  intro index
  by_cases early : index < total
  · have cut : fragments = (before ++ [fragment]) ++ after := by simp [split]
    have front := piecesOf_front cut
    obtain ⟨piece, member, covers⟩ := done.2 index early
    have held : piece ∈ piecesOf fragments := same.mem_iff.mp (among piece member)
    rw [bytes index early, otherBytes index early,
      firstByte_of_apart apart front held covers (finished.2 index early),
      firstByte_of_apart apart (fun piece member => same.mem_iff.mp (among piece member)) held
        covers ⟨piece, member, covers⟩]
  · rw [List.getElem?_eq_none (by omega), List.getElem?_eq_none (by omega)]

/-- The reassembly returns the datagram when it is finished, unless a gap stays open behind its
end. -/
theorem defragments_iff (unevicted : Unevicted cfg state key fragments)
    (oneEnd : OneEnd total fragments) :
    Defragments cfg state key total fragments ↔
      GaplessWhenFinished total fragments ∧
        (Apart (piecesOf fragments) → ∀ other, other.Perm fragments →
          Unevicted cfg state key other → GaplessWhenFinished total other) := by
  constructor
  · intro ⟨reassembles, anyOrder⟩
    refine ⟨(reassembles_iff unevicted oneEnd).mp reassembles, ?_⟩
    intro apart other perm otherUnevicted before fragment after split unfinished finished
    have all : Finished total (piecesOf fragments) := finished.mono fun piece member =>
      (perm.filterMap Fragment.piece).mem_iff.mp
        (@piecesOf_front _ _ after (by simp [split]) piece member)
    obtain ⟨start, last, rest, whole, early, now⟩ := exists_finishing all
    have complete := (reassembles start last rest whole early).1.mpr now
    obtain ⟨otherStart, otherLast, otherRest, otherWhole, otherEarly, otherNow, again, _⟩ :=
      (anyOrder apart other perm otherUnevicted _).mpr
        ⟨start, last, rest, whole, early, now, complete, rfl⟩
    obtain ⟨rfl, rfl⟩ :=
      finishing_unique (split.symm.trans otherWhole) unfinished finished otherEarly otherNow
    exact ((resultAfter_complete otherUnevicted (oneEnd.perm perm) split unfinished).1.mp
      again).2
  · intro ⟨gapless, anyGapless⟩
    refine ⟨(reassembles_iff unevicted oneEnd).mpr gapless, ?_⟩
    intro apart other perm otherUnevicted datagram
    constructor
    · exact Delivers.perm unevicted otherUnevicted oneEnd apart perm gapless
    · have otherApart : Apart (piecesOf other) := by
        refine ((perm.filterMap Fragment.piece).pairwise_iff fun {one another} clear index covers
          also => ?_).mpr apart
        exact clear index also covers
      exact Delivers.perm otherUnevicted unevicted (oneEnd.perm perm) otherApart perm.symm
        (anyGapless apart other perm otherUnevicted)

end Results

section Samples

theorem admitted_iff {cfg : DefragConfig} {state : IpDefrag} {pp : ParsedPacket} :
    Admitted cfg state pp ↔
      (state.find pp.fragKey = none → state.table.length < cfg.maxDatagrams) ∧
        (0 < (state.datagram pp.fragKey).grow pp.fragOffset
            (pp.l4Data.take (fragLen pp.fragOffset pp.l4Data.length)).length →
          state.memUsed + (state.datagram pp.fragKey).grow pp.fragOffset
            (pp.l4Data.take (fragLen pp.fragOffset pp.l4Data.length)).length ≤
              cfg.maxMemBytes) := by
  constructor
  · intro ⟨entries, memory⟩
    exact ⟨entries, memory _ rfl⟩
  · intro ⟨entries, memory⟩
    refine ⟨entries, ?_⟩
    rintro _ rfl
    exact memory

instance (cfg : DefragConfig) (state : IpDefrag) (pp : ParsedPacket) :
    Decidable (Admitted cfg state pp) := decidable_of_iff' _ admitted_iff

theorem unevicted_of_positions {cfg : DefragConfig} {state : IpDefrag} {key : FragKey}
    {fragments : List Fragment} (absent : state.find key = none)
    (ofKey : ∀ fragment ∈ fragments, fragment.pp.fragKey = key)
    (admitted : ∀ place : Fin fragments.length,
      Admitted cfg (stateAfter cfg state (fragments.take place)) (fragments.get place).pp) :
    Unevicted cfg state key fragments := by
  refine ⟨absent, ofKey, ?_⟩
  rintro before fragment after rfl _
  have here := admitted ⟨before.length, by simp⟩
  simpa using here

def sampleFragment (off : Nat) (byte : UInt8) (more : Bool) : Fragment where
  pp :=
    { ParsedPacket.empty with
      isIpv4 := true
      isFragment := true
      fragOffset := off
      fragMore := more
      l4Data := List.replicate 8 byte }
  nowMs := 0
  short := by simp [maxDatagramLen]

/-- The second fragment lies behind the end of the datagram. -/
def strayFragments : List Fragment :=
  [sampleFragment 0 0xAA true, sampleFragment 24 0xCC true, sampleFragment 8 0xBB false]

def strayKey : FragKey := (sampleFragment 0 0xAA true).pp.fragKey

theorem stray_unevicted : Unevicted .default .empty strayKey strayFragments :=
  unevicted_of_positions (by decide) (by decide) (by decide)

theorem stray_oneEnd : OneEnd 16 strayFragments := by
  unfold OneEnd
  decide

theorem defragments_sample :
    Defragments .default .empty strayKey 16 strayFragments ↔
      GaplessWhenFinished 16 strayFragments ∧
        (Apart (piecesOf strayFragments) → ∀ other, other.Perm strayFragments →
          Unevicted .default .empty strayKey other → GaplessWhenFinished 16 other) :=
  defragments_iff stray_unevicted stray_oneEnd

theorem stray_fragment_blocks :
    Unevicted .default .empty strayKey strayFragments ∧ OneEnd 16 strayFragments ∧
      ¬ Defragments .default .empty strayKey 16 strayFragments := by
  refine ⟨stray_unevicted, stray_oneEnd, fun defragments => ?_⟩
  have third := defragments.reassembles (strayFragments.take 2) (sampleFragment 8 0xBB false) []
    rfl (by decide)
  have complete := third.1.mpr (by decide)
  exact absurd complete (by decide)

end Samples

end Idsm.EthProbe
