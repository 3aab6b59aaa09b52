import Idsm.EthProbe.IpDefrag

/-! What the reassembly table does with a fragment that fits, and how the pieces of one datagram
come together in any order. -/

set_option autoImplicit false

namespace Idsm.EthProbe

open Idsm.Foundation

namespace IpDefrag

variable {state : IpDefrag} {key other : FragKey} {dg : Datagram}

theorem find_setDatagram_self : (state.setDatagram key dg).find key = some dg := by
  have absent : (state.table.filter fun entry => entry.1 ≠ key).find?
      (fun entry => entry.1 = key) = none := by
    rw [List.find?_eq_none]
    intro entry member
    simpa using (List.mem_filter.mp member).2
  rw [find, setDatagram, List.find?_append, absent]
  simp

theorem find?_filter_of_ne (apart : other ≠ key) (table : List (FragKey × Datagram)) :
    (table.filter fun entry => entry.1 ≠ key).find? (fun entry => entry.1 = other) =
      table.find? fun entry => entry.1 = other := by
  rw [List.find?_filter]
  congr 1
  funext entry
  by_cases same : entry.1 = other
  · simp [same, apart]
  · simp [same]

theorem find_setDatagram_of_ne (apart : other ≠ key) :
    (state.setDatagram key dg).find other = state.find other := by
  rw [find, setDatagram, List.find?_append, find?_filter_of_ne apart, find]
  have absent : [(key, dg)].find? (fun entry => entry.1 = other) = none := by
    simp [Ne.symm apart]
  rw [absent, Option.or_none]

theorem find_setDatagram : (state.setDatagram key dg).find other =
    if other = key then some dg else state.find other := by
  split
  next same => exact same ▸ find_setDatagram_self
  next apart => exact find_setDatagram_of_ne apart

theorem find_erase_self : (state.erase key).find key = none := by
  rw [find, Option.map_eq_none_iff, List.find?_eq_none]
  intro entry member
  simpa using (List.mem_filter.mp member).2

theorem find_erase_of_ne (apart : other ≠ key) : (state.erase key).find other = state.find other := by
  rw [find, erase, find?_filter_of_ne apart, find]

theorem find_erase :
    (state.erase key).find other = if other = key then none else state.find other := by
  split
  next same => exact same ▸ find_erase_self
  next apart => exact find_erase_of_ne apart

@[simp] theorem find_touch : (state.touch key).find other = state.find other := rfl

/-- An entry that is not old stays. -/
theorem find_expire {timeoutMs nowMs : UInt64}
    (young : ∀ entry ∈ state.table, entry.1 = key → nowMs - entry.2.lastSeenMs < timeoutMs) :
    (state.expire timeoutMs nowMs).1.find key = state.find key := by
  have others : ∀ (old : List (FragKey × Datagram)) (state : IpDefrag),
      (∀ entry ∈ old, entry.1 ≠ key) →
        (old.foldl (fun state entry => state.erase entry.1) state).find key = state.find key := by
    intro old
    induction old with
    | nil => exact fun _ _ => rfl
    | cons entry old ih =>
        intro state apart
        rw [List.foldl_cons, ih _ fun other member => apart other (List.mem_cons_of_mem _ member)]
        exact find_erase_of_ne (Ne.symm (apart entry List.mem_cons_self))
  refine others _ state fun entry member same => ?_
  obtain ⟨inside, old⟩ := List.mem_filter.mp member
  have := young entry inside same
  exact absurd this (UInt64.not_lt.mpr (of_decide_eq_true old))

end IpDefrag

section OneFragment

variable {cfg : DefragConfig} {state : IpDefrag} {pp : ParsedPacket} {payload : List UInt8}
  {nowMs : UInt64}

/-- The datagram that a fragment belongs to. -/
def IpDefrag.datagram (state : IpDefrag) (key : FragKey) : Datagram := (state.find key).getD .fresh

/-- Neither cap is reached by the fragment. -/
structure Fits (cfg : DefragConfig) (state : IpDefrag) (pp : ParsedPacket) : Prop where
  entries : state.find pp.fragKey = none → state.table.length < cfg.maxDatagrams
  memory : state.memUsed + (state.datagram pp.fragKey).grow pp.fragOffset pp.l4Data.length ≤
    cfg.maxMemBytes

theorem fragLen_of_le {off length : Nat} (bounded : off + length ≤ maxDatagramLen) :
    fragLen off length = length := by
  unfold maxDatagramLen at bounded
  have small : length % 2 ^ 32 = length := Nat.mod_eq_of_lt (by omega)
  have sum : (off + length) % 2 ^ 32 = off + length := Nat.mod_eq_of_lt (by omega)
  rw [fragLen, small, sum, maxDatagramLen]
  exact if_neg (by omega)

theorem length_take_fragLen_le (off : Nat) (data : List UInt8) :
    (data.take (fragLen off data.length)).length ≤ data.length :=
  List.length_take_le' _ _

theorem Datagram.grow_le (dg : Datagram) (off : Nat) {taken length : Nat} (fewer : taken ≤ length) :
    dg.grow off taken ≤ dg.grow off length := by
  unfold Datagram.grow
  omega

/-- The part of the fragment that is taken makes no other datagram give way. -/
structure Admitted (cfg : DefragConfig) (state : IpDefrag) (pp : ParsedPacket) : Prop where
  entries : state.find pp.fragKey = none → state.table.length < cfg.maxDatagrams
  memory : ∀ grow, grow = (state.datagram pp.fragKey).grow pp.fragOffset
      (pp.l4Data.take (fragLen pp.fragOffset pp.l4Data.length)).length →
    0 < grow → state.memUsed + grow ≤ cfg.maxMemBytes

theorem Fits.admitted (fits : Fits cfg state pp) : Admitted cfg state pp where
  entries := fits.entries
  memory grow same _ := by
    have grows := (state.datagram pp.fragKey).grow_le pp.fragOffset
      (length_take_fragLen_le pp.fragOffset pp.l4Data)
    rw [same]
    exact Nat.le_trans (Nat.add_le_add_left grows _) fits.memory

theorem openEntry_of_admitted (admitted : Admitted cfg state pp) :
    state.openEntry cfg pp.fragKey = (state, false) := by
  unfold IpDefrag.openEntry
  split
  next absent =>
    have free := admitted.entries (Option.isNone_iff_eq_none.mp absent)
    cases state.lru.length with
    | zero => rfl
    | succ fuel =>
        rw [IpDefrag.makeRoom]
        exact if_neg (by omega)
  next => rfl

theorem openMemory_of_free {key : FragKey} {grow : Nat}
    (free : 0 < grow → state.memUsed + grow ≤ cfg.maxMemBytes) :
    state.openMemory cfg key grow = (state, false) := by
  unfold IpDefrag.openMemory
  split
  next grows =>
    have fits := free grows
    cases state.lru.length with
    | zero => rfl
    | succ fuel =>
        rw [IpDefrag.makeSpace]
        exact if_neg (by omega)
  next => rfl

theorem feedDatagram_find {key : FragKey} {dg : Datagram} {off : Nat} {data : List UInt8}
    {more evicted : Bool}
    (free : 0 < dg.grow off data.length →
      state.memUsed + dg.grow off data.length ≤ cfg.maxMemBytes) :
    (∀ other, (state.feedDatagram cfg key dg off data more evicted).1.find other =
      if other = key then
        if (dg.put off data more).complete then none else some (dg.put off data more)
      else state.find other) ∧
    (state.feedDatagram cfg key dg off data more evicted).2 =
      if (dg.put off data more).complete then
        ⟨true, evicted, (dg.put off data more).buf.take (dg.put off data more).totalLen⟩
      else ⟨false, evicted, []⟩ := by
  unfold IpDefrag.feedDatagram
  dsimp only
  rw [if_neg fun beyond => Nat.not_lt.mpr (free beyond.1) beyond.2]
  have stored : ∀ (memUsed : Nat) other, IpDefrag.find
      { state.setDatagram key (dg.put off data more) with memUsed } other =
        if other = key then some (dg.put off data more) else state.find other :=
    fun _ _ => IpDefrag.find_setDatagram
  cases whole : (dg.put off data more).complete with
  | false => exact ⟨stored _, rfl⟩
  | true =>
      refine ⟨fun other => ?_, rfl⟩
      rw [if_pos rfl, IpDefrag.find_erase, stored]
      split
      next => rfl
      next => rfl

/-- The datagram with the fragment. -/
def IpDefrag.fed (state : IpDefrag) (pp : ParsedPacket) (nowMs : UInt64) : Datagram :=
  ((state.datagram pp.fragKey).seen nowMs).put pp.fragOffset
    (pp.l4Data.take (fragLen pp.fragOffset pp.l4Data.length)) pp.fragMore

/-- A fragment that is admitted is put into its datagram and touches no other. -/
theorem addFragment_admitted (admitted : Admitted cfg state pp) (something : pp.l4Data ≠ [])
    (inside : pp.fragOffset < maxDatagramLen) :
    (∀ other, (addFragment cfg state pp pp.l4Data nowMs).1.find other =
      if other = pp.fragKey then
        if (state.fed pp nowMs).complete then none else some (state.fed pp nowMs)
      else state.find other) ∧
    (addFragment cfg state pp pp.l4Data nowMs).2 =
      if (state.fed pp nowMs).complete then
        ⟨true, false, (state.fed pp nowMs).buf.take (state.fed pp nowMs).totalLen⟩
      else ⟨false, false, []⟩ := by
  unfold addFragment
  rw [if_neg (by simp [something]; omega)]
  dsimp only
  rw [openEntry_of_admitted admitted]
  dsimp only
  rw [openMemory_of_free]
  · dsimp only
    refine ⟨fun other => ((feedDatagram_find ?_).1 other).trans ?_, (feedDatagram_find ?_).2⟩
    · exact admitted.memory _ rfl
    · rw [IpDefrag.find_touch, IpDefrag.find_setDatagram]
      split
      next => rfl
      next => rfl
    · exact admitted.memory _ rfl
  · exact admitted.memory _ rfl

/-- A fragment that fits is put into its datagram and touches no other. -/
theorem addFragment_find (fits : Fits cfg state pp) (something : pp.l4Data ≠ [])
    (inside : pp.fragOffset < maxDatagramLen) :
    (∀ other, (addFragment cfg state pp pp.l4Data nowMs).1.find other =
      if other = pp.fragKey then
        if (state.fed pp nowMs).complete then none else some (state.fed pp nowMs)
      else state.find other) ∧
    (addFragment cfg state pp pp.l4Data nowMs).2 =
      if (state.fed pp nowMs).complete then
        ⟨true, false, (state.fed pp nowMs).buf.take (state.fed pp nowMs).totalLen⟩
      else ⟨false, false, []⟩ :=
  addFragment_admitted fits.admitted something inside

end OneFragment

section Pieces

/-- A piece of a datagram, and whether more follow. -/
structure Piece where
  start : Nat
  data : List UInt8
  more : Bool
  deriving DecidableEq, Repr

def Piece.Covers (piece : Piece) (index : Nat) : Prop :=
  piece.start ≤ index ∧ index < piece.start + piece.data.length

/-- The pieces of a datagram, from a position on. -/
def piecesFrom (start : Nat) : List (List UInt8) → List Piece
  | [] => []
  | part :: later => ⟨start, part, !later.isEmpty⟩ :: piecesFrom (start + part.length) later

/-- Pieces that make up a datagram and do not overlap. -/
structure Partition (datagram : List UInt8) (pieces : List Piece) : Prop where
  stands : ∀ piece ∈ pieces, StandsAt datagram piece.start piece.data ∧ piece.data ≠ []
  apart : pieces.Pairwise fun one other => ∀ index, one.Covers index → ¬ other.Covers index
  covered : ∀ index < datagram.length, ∃ piece ∈ pieces, piece.Covers index
  last : ∀ piece ∈ pieces, piece.more = false → piece.start + piece.data.length = datagram.length
  ends : pieces ≠ [] → ∃ piece ∈ pieces, piece.more = false

variable {datagram : List UInt8} {pieces order : List Piece}

theorem Partition.perm (partition : Partition datagram pieces) (perm : order.Perm pieces) :
    Partition datagram order where
  stands piece member := partition.stands piece (perm.mem_iff.mp member)
  apart := by
    refine (perm.pairwise_iff fun {one other} apart index covers => ?_).mpr partition.apart
    exact fun also => apart index also covers
  covered index inside := by
    obtain ⟨piece, member, covers⟩ := partition.covered index inside
    exact ⟨piece, perm.mem_iff.mpr member, covers⟩
  last piece member := partition.last piece (perm.mem_iff.mp member)
  ends some := by
    have filled : pieces ≠ [] := by
      rintro rfl
      exact some (List.perm_nil.mp perm)
    obtain ⟨piece, member, last⟩ := partition.ends filled
    exact ⟨piece, perm.mem_iff.mpr member, last⟩

theorem piecesFrom_start {parts : List (List UInt8)} {start : Nat} {piece : Piece}
    (member : piece ∈ piecesFrom start parts) : start ≤ piece.start := by
  induction parts generalizing start with
  | nil => cases member
  | cons part parts ih =>
      rcases List.mem_cons.mp member with rfl | member
      · exact Nat.le_refl _
      · exact Nat.le_trans (Nat.le_add_right _ _) (ih member)

theorem piecesFrom_stands {parts : List (List UInt8)} {front : List UInt8} {piece : Piece}
    (filled : ∀ part ∈ parts, part ≠ []) (member : piece ∈ piecesFrom front.length parts) :
    StandsAt (front ++ parts.flatten) piece.start piece.data ∧ piece.data ≠ [] ∧
      (piece.more = false →
        piece.start + piece.data.length = (front ++ parts.flatten).length) := by
  induction parts generalizing front with
  | nil => cases member
  | cons part parts ih =>
      rcases List.mem_cons.mp member with rfl | member
      · refine ⟨?_, filled part List.mem_cons_self, fun last => ?_⟩
        · rw [StandsAt, List.drop_left, List.flatten_cons]
          exact List.prefix_append _ _
        · have none_later : parts = [] := by simpa using last
          simp [none_later]
      · have length : (front ++ part).length = front.length + part.length := List.length_append
        have later := @ih (front ++ part) (fun part inside => filled part
          (List.mem_cons_of_mem _ inside)) (length ▸ member)
        rwa [List.append_assoc, ← List.flatten_cons] at later

theorem piecesFrom_covered {parts : List (List UInt8)} {start index : Nat}
    (onward : start ≤ index) (inside : index < start + parts.flatten.length) :
    ∃ piece ∈ piecesFrom start parts, piece.Covers index := by
  induction parts generalizing start with
  | nil =>
      rw [List.flatten_nil, List.length_nil] at inside
      omega
  | cons part parts ih =>
      rw [List.flatten_cons, List.length_append] at inside
      by_cases here : index < start + part.length
      · exact ⟨⟨start, part, _⟩, List.mem_cons_self, onward, here⟩
      · obtain ⟨piece, member, covers⟩ := @ih (start + part.length) (by omega) (by omega)
        exact ⟨piece, List.mem_cons_of_mem _ member, covers⟩

theorem piecesFrom_apart {parts : List (List UInt8)} {start : Nat} :
    (piecesFrom start parts).Pairwise fun one other =>
      ∀ index, one.Covers index → ¬ other.Covers index := by
  induction parts generalizing start with
  | nil => exact .nil
  | cons part parts ih =>
      refine List.pairwise_cons.mpr ⟨fun other member index covers also => ?_, ih⟩
      have := piecesFrom_start member
      have := covers.2
      have := also.1
      dsimp only at *
      omega

theorem piecesFrom_ends {parts : List (List UInt8)} {start : Nat} (filled : parts ≠ []) :
    ∃ piece ∈ piecesFrom start parts, piece.more = false := by
  induction parts generalizing start with
  | nil => exact absurd rfl filled
  | cons part parts ih =>
      cases parts with
      | nil => exact ⟨_, List.mem_cons_self, rfl⟩
      | cons next later =>
          obtain ⟨piece, member, last⟩ := @ih (start + part.length) (by simp)
          exact ⟨piece, List.mem_cons_of_mem _ member, last⟩

theorem partition_piecesFrom {parts : List (List UInt8)} (filled : ∀ part ∈ parts, part ≠ []) :
    Partition parts.flatten (piecesFrom 0 parts) where
  stands piece member :=
    ⟨(@piecesFrom_stands parts [] piece filled member).1,
      (@piecesFrom_stands parts [] piece filled member).2.1⟩
  apart := piecesFrom_apart
  covered index inside := piecesFrom_covered (Nat.zero_le _) (by omega)
  last piece member := (@piecesFrom_stands parts [] piece filled member).2.2
  ends some := piecesFrom_ends (by rintro rfl; exact some rfl)

/-- What a datagram holds after some of the pieces. -/
structure Collected (datagram : List UInt8) (fed : List Piece) (dg : Datagram) : Prop where
  assembled : Assembled datagram dg.buf dg.covered
  covered : ∀ index, InRanges dg.covered index ↔ ∃ piece ∈ fed, piece.Covers index
  haveLast : dg.haveLast = true ↔ ∃ piece ∈ fed, piece.more = false
  totalLen : dg.haveLast = true → dg.totalLen = datagram.length

theorem collected_fresh : Collected datagram [] .fresh where
  assembled := assembled_nil
  covered index := by simp [Datagram.fresh]
  haveLast := by simp [Datagram.fresh]
  totalLen := nofun

variable {fed later : List Piece} {piece : Piece} {dg : Datagram}

theorem Collected.put {nowMs : UInt64} (collected : Collected datagram fed dg)
    (partition : Partition datagram (fed ++ piece :: later)) :
    Collected datagram (fed ++ [piece])
      ((dg.seen nowMs).put piece.start piece.data piece.more) := by
  obtain ⟨stands, something⟩ := partition.stands piece (by simp)
  have within := stands.end_le something
  have positive := List.length_pos_iff.mpr something
  have bounded := collected.assembled.bounded
  have grown : (dg.buf ++ List.replicate (dg.grow piece.start piece.data.length) 0).length =
      max dg.buf.length (piece.start + piece.data.length) := by
    rw [List.length_append, List.length_replicate, Datagram.grow]
    omega
  have extended : Assembled datagram
      (dg.buf ++ List.replicate (dg.grow piece.start piece.data.length) 0) dg.covered :=
    collected.assembled.extend (by omega)
  refine ⟨extended.put stands something (by omega), fun index => ?_, ?_, ?_⟩
  · have merged := @inRanges_mergeRange dg.covered piece.start
      (piece.start + piece.data.length) index collected.assembled.separated (by omega)
    change InRanges (mergeRange _ _ dg.covered) index ↔ _
    rw [merged, collected.covered index]
    simp [or_and_right, exists_or, Piece.Covers]
  · change (!piece.more || dg.haveLast) = true ↔ _
    rw [Bool.or_eq_true, collected.haveLast]
    simp [or_and_right, exists_or, or_comm]
  · intro last
    change (if piece.more then dg.totalLen else _) = _
    cases more : piece.more with
    | true =>
        refine collected.totalLen ?_
        change (!piece.more || dg.haveLast) = true at last
        rwa [more] at last
    | false => exact partition.last piece (by simp) more

/-- The last piece completes the datagram. -/
theorem Collected.complete (collected : Collected datagram fed dg)
    (partition : Partition datagram fed) (something : datagram ≠ []) :
    dg.complete = true ∧ dg.buf.take dg.totalLen = datagram := by
  obtain ⟨shape, same⟩ := collected.assembled.complete something fun index inside =>
    (collected.covered index).mpr (partition.covered index inside)
  have fedSome : fed ≠ [] := by
    rintro rfl
    obtain ⟨piece, member, _⟩ := partition.covered 0 (List.length_pos_iff.mpr something)
    cases member
  have last := collected.haveLast.mpr (partition.ends fedSome)
  have total := collected.totalLen last
  constructor
  · rw [Datagram.complete, last, shape, total]
    simp
  · rw [same, total, List.take_length]

/-- Before that it is not complete. -/
theorem Collected.incomplete (collected : Collected datagram fed dg)
    (partition : Partition datagram (fed ++ piece :: later)) : dg.complete = false := by
  obtain ⟨stands, something⟩ := partition.stands piece (by simp)
  have within := stands.end_le something
  have positive := List.length_pos_iff.mpr something
  have missing : ¬ InRanges dg.covered piece.start := by
    rw [collected.covered]
    rintro ⟨early, member, covers⟩
    have apart := (List.pairwise_append.mp partition.apart).2.2 early member piece
      List.mem_cons_self
    exact apart piece.start covers ⟨Nat.le_refl _, by omega⟩
  rw [Datagram.complete]
  cases last : dg.haveLast with
  | false => rfl
  | true =>
      have total := collected.totalLen last
      rw [Bool.true_and]
      split
      next reach shape =>
        rw [shape] at missing
        rw [decide_eq_false_iff_not, total]
        intro beyond
        exact missing ⟨(0, reach), List.mem_cons_self, Nat.zero_le _, by dsimp only; omega⟩
      next => rfl

end Pieces

end Idsm.EthProbe
