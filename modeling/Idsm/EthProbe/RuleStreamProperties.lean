import Idsm.EthProbe.Direction
import Idsm.Foundation.Execution
import Idsm.Foundation.Tail

/-! Rules on a stream that comes in chunks: what the search finds, what the retained tail
holds, and when a rule with one raw content fires. -/

set_option autoImplicit false

namespace Idsm.EthProbe

open Idsm.Foundation

section Search

variable {nocase : Bool} {needle hay : List UInt8}

theorem startsWith_iff :
    startsWith nocase needle hay = true ↔
      needle.map (folded nocase) <+: hay.map (folded nocase) := by
  induction needle generalizing hay with
  | nil => simp [startsWith]
  | cons b needle ih =>
      cases hay with
      | nil => simp [startsWith]
      | cons a hay =>
          rw [startsWith, Bool.and_eq_true, beq_iff_eq, ih, List.map_cons, List.map_cons,
            List.cons_prefix_cons]
          exact and_congr_left fun _ => eq_comm

/-- The needle stands at an index of the hay. -/
def StandsIn (nocase : Bool) (needle hay : List UInt8) (index : Nat) : Prop :=
  needle.map (folded nocase) <+: (hay.drop index).map (folded nocase)

theorem StandsIn.fits {index : Nat} (stands : StandsIn nocase needle hay index)
    (something : needle ≠ []) : index + needle.length ≤ hay.length := by
  have short := stands.length_le
  rw [List.length_map, List.length_map, List.length_drop] at short
  have positive := List.length_pos_iff.mpr something
  omega

theorem memfind_eq_some {index : Nat} :
    memfind hay needle nocase = some index ↔ needle ≠ [] ∧ StandsIn nocase needle hay index ∧
      ∀ earlier < index, ¬StandsIn nocase needle hay earlier := by
  unfold memfind
  by_cases none : needle = []
  · rw [if_pos (.inl none)]
    exact ⟨fun impossible => (nomatch impossible), fun found => absurd none found.1⟩
  · by_cases long : hay.length < needle.length
    · rw [if_pos (.inr long)]
      refine ⟨fun impossible => (nomatch impossible), fun found => ?_⟩
      have fits := found.2.1.fits none
      omega
    · rw [if_neg (not_or.mpr ⟨none, long⟩), List.find?_range_eq_some, startsWith_iff, List.mem_range]
      constructor
      · rintro ⟨stands, _, first⟩
        refine ⟨none, stands, fun earlier before there => ?_⟩
        have missed := first earlier before
        rw [Bool.not_eq_true', ← Bool.not_eq_true, startsWith_iff] at missed
        exact missed there
      · rintro ⟨_, stands, first⟩
        have fits := stands.fits none
        refine ⟨stands, by omega, fun earlier before => ?_⟩
        rw [Bool.not_eq_true', ← Bool.not_eq_true, startsWith_iff]
        exact first earlier before

/-- The pattern occurs in the bytes, in any case when the content says so. -/
def Occurs (nocase : Bool) (pattern bytes : List UInt8) : Prop :=
  pattern.map (folded nocase) <:+: bytes.map (folded nocase)

theorem occurs_iff_standsIn : Occurs nocase needle hay ↔ ∃ index, StandsIn nocase needle hay index := by
  unfold Occurs StandsIn
  constructor
  · rintro ⟨before, after, split⟩
    refine ⟨before.length, after, ?_⟩
    rw [List.map_drop, ← split, List.append_assoc, List.drop_left]
  · rintro ⟨index, after, split⟩
    refine ⟨(hay.take index).map (folded nocase), after, ?_⟩
    rw [List.append_assoc, split, ← List.map_append, List.take_append_drop]

theorem memfind_isSome (something : needle ≠ []) :
    (memfind hay needle nocase).isSome = true ↔ Occurs nocase needle hay := by
  rw [Option.isSome_iff_exists, occurs_iff_standsIn]
  constructor
  · rintro ⟨index, found⟩
    exact ⟨index, (memfind_eq_some.1 found).2.1⟩
  · intro there
    classical
    refine ⟨Nat.find there, memfind_eq_some.2 ⟨something, Nat.find_spec there, ?_⟩⟩
    exact fun earlier before => Nat.find_min there before

end Search

section Runs

variable {probe : Probe} {port : UInt16} {ds : DirState} {pp : ParsedPacket} {data : List UInt8}

theorem keepTail_eq_rtake (window : List UInt8) :
    probe.keepTail window = window.rtake probe.keep := by
  unfold Probe.keepTail
  split
  next => rfl
  next short => exact (rtake_eq_self (Nat.le_of_not_lt short)).symm

theorem handleStreamData_ruleTail :
    (probe.handleStreamData pp port ds data).1.ruleTail =
      (ds.ruleTail ++ data).rtake probe.keep := by
  unfold Probe.handleStreamData
  dsimp only
  rw [capAcc_ruleTail, feedApp_ruleTail, keepTail_eq_rtake]

/-- What one chunk meets: the kept end of everything before it. -/
theorem chunkStates_tail {chunks : List Chunk} {past : List UInt8}
    (tail : ds.ruleTail = past.rtake probe.keep) {met : DirState × Chunk} :
    met ∈ probe.chunkStates port ds chunks →
      ∃ before after, chunks = before ++ met.2 :: after ∧
        met.1.ruleTail = (past ++ streamOf before).rtake probe.keep := by
  induction chunks generalizing ds past with
  | nil => exact fun none => nomatch none
  | cons chunk later ih =>
      intro member
      rcases List.mem_cons.mp member with rfl | behind
      · exact ⟨[], later, rfl, by rw [streamOf, List.flatMap_nil, List.append_nil, tail]⟩
      · have next : (probe.handleStreamData chunk.packet port ds chunk.data).1.ruleTail =
            (past ++ chunk.data).rtake probe.keep := by
          rw [handleStreamData_ruleTail, tail, rtake_rtake_append]
        obtain ⟨before, after, split, met_tail⟩ := ih next behind
        refine ⟨chunk :: before, after, by rw [split]; rfl, ?_⟩
        rw [met_tail, streamOf, streamOf, List.flatMap_cons, List.append_assoc]

/-- A pattern no longer than the kept tail and one byte occurs in the stream exactly when it
occurs in what one chunk meets. -/
theorem occurs_iff_in_window {nocase : Bool} {pattern : List UInt8}
    (short : pattern.length ≤ probe.keep + 1) {chunks : List Chunk}
    {past : List UInt8} (tail : ds.ruleTail = past.rtake probe.keep) :
    Occurs nocase pattern (past ++ streamOf chunks) ↔ Occurs nocase pattern past ∨
      ∃ met ∈ probe.chunkStates port ds chunks,
        Occurs nocase pattern (met.1.ruleTail ++ met.2.data) := by
  induction chunks generalizing ds past with
  | nil => simp [streamOf, Probe.chunkStates]
  | cons chunk later ih =>
      have next : (probe.handleStreamData chunk.packet port ds chunk.data).1.ruleTail =
          (past ++ chunk.data).rtake probe.keep := by
        rw [handleStreamData_ruleTail, tail, rtake_rtake_append]
      have window : Occurs nocase pattern (past ++ chunk.data) ↔ Occurs nocase pattern past ∨
          Occurs nocase pattern (ds.ruleTail ++ chunk.data) := by
        have split := @infix_append_iff_tail _ probe.keep (past.map (folded nocase))
          (chunk.data.map (folded nocase)) (pattern.map (folded nocase)) (by simpa using short)
        rw [Occurs, Occurs, Occurs, List.map_append, split, tail, List.map_append]
        unfold List.rtake
        rw [List.map_drop, List.length_map]
      rw [streamOf, List.flatMap_cons, ← streamOf, ← List.append_assoc, ih next, window,
        Probe.chunkStates, List.exists_mem_cons_iff, or_assoc]

end Runs

section OneContent

variable {probe : Probe} {port : UInt16} {rule : Rule} {content : ContentMatch}

/-- A content of the raw bytes without positions. -/
structure Plain (content : ContentMatch) : Prop where
  raw : content.buffer = .raw
  offset : content.offset = none
  depth : content.depth = none
  distance : content.distance = none
  within : content.within = none

theorem contentMatches_of_plain (plain : Plain content) (buf : List UInt8) :
    contentMatches buf content 0 =
      (memfind buf content.pattern.val content.nocase).map (· + content.pattern.val.length) := by
  have start : content.start 0 = 0 := by
    unfold ContentMatch.start
    rw [plain.distance, plain.offset]
  have limit : content.limit buf.length 0 = buf.length := by
    unfold ContentMatch.limit
    rw [plain.within, plain.depth]
  unfold contentMatches
  dsimp only
  rw [start, limit]
  by_cases long : buf.length < content.pattern.val.length
  · rw [if_pos (.inr (.inl long)), memfind, if_pos (.inr long)]
    rfl
  · rw [if_neg, if_pos (Nat.zero_le _)]
    · unfold slice
      rw [List.drop_zero, Nat.sub_zero, List.take_length]
      congr 1
      funext found
      omega
    · rintro (none | small | ⟨_, small⟩)
      · exact absurd none (Nat.not_lt_zero _)
      · exact long small
      · exact long small

/-- Such a rule matches the header and the window by itself. -/
theorem matches_iff_of_plain (only : rule.contents = [content]) (plain : Plain content)
    (pp : ParsedPacket) (window : List UInt8) :
    rule.matches pp { MatchBuffers.empty with raw := some window } = true ↔
      rule.matchesHeader pp = true ∧ Occurs content.nocase content.pattern.val window := by
  rw [Rule.matches, Bool.and_eq_true, only, contentsMatch, plain.raw]
  refine and_congr_right fun _ => ?_
  rw [← memfind_isSome content.pattern.property]
  have selected : MatchBuffers.select { MatchBuffers.empty with raw := some window } .raw =
      some window := rfl
  rw [selected]
  dsimp only
  rw [contentMatches_of_plain plain]
  cases memfind window content.pattern.val content.nocase with
  | none => simp
  | some found => simp [contentsMatch]

theorem le_foldl_max {lengths : List Nat} {start length : Nat} (member : length ∈ lengths) :
    length ≤ lengths.foldl max start := by
  have grows : ∀ (rest : List Nat) (first : Nat), first ≤ rest.foldl max first := by
    intro rest
    induction rest with
    | nil => exact fun _ => Nat.le_refl _
    | cons other rest ih => exact fun first => (Nat.le_max_left _ _).trans (ih _)
  induction lengths generalizing start with
  | nil => cases member
  | cons other rest ih =>
      rcases List.mem_cons.mp member with rfl | behind
      · exact (Nat.le_max_right _ _).trans (grows rest _)
      · exact ih behind

theorem pattern_le_keep (loaded : rule ∈ probe.rules.rules) (there : content ∈ rule.contents) :
    content.pattern.val.length ≤ probe.keep + 1 := by
  have longest : content.pattern.val.length ≤ probe.rules.maxPatternLen := by
    refine le_foldl_max (List.mem_flatMap.mpr ⟨rule, loaded, ?_⟩)
    exact List.mem_map_of_mem there
  unfold Probe.keep
  omega

/-- The rule fires on some chunk of a direction exactly when its header matches the
direction and its pattern occurs in the stream. -/
theorem stream_rule_fires_iff {direction : ParsedPacket} {chunks : List Chunk}
    (loaded : rule ∈ probe.rules.rules) (only : rule.contents = [content])
    (plain : Plain content) (oneDirection : ∀ chunk ∈ chunks, SameHeader direction chunk.packet) :
    (∃ met ∈ probe.chunkStates port .fresh chunks,
      rule ∈ probe.streamHits met.2.packet met.1 met.2.data) ↔
      rule.matchesHeader direction = true ∧
        Occurs content.nocase content.pattern.val (streamOf chunks) := by
  have short := @pattern_le_keep probe rule content loaded (by simp [only])
  have fresh : DirState.fresh.ruleTail = ([] : List UInt8).rtake probe.keep := by
    rw [List.rtake_nil]
    rfl
  have nowhere : ¬Occurs content.nocase content.pattern.val [] := by
    intro found
    exact content.pattern.property (by simpa [Occurs] using found)
  have window := @occurs_iff_in_window probe port .fresh content.nocase _ short chunks _ fresh
  rw [List.nil_append, or_iff_right nowhere] at window
  rw [window, ← exists_and_left]
  refine exists_congr fun met => ?_
  rw [and_left_comm]
  refine and_congr_right fun member => ?_
  obtain ⟨before, after, split, _⟩ := chunkStates_tail fresh member
  have same := oneDirection met.2 (by simp [split])
  rw [Probe.streamHits, RuleEngine.matched, List.mem_filter, and_iff_right loaded,
    matches_iff_of_plain only plain, same.matchesHeader]

/-- A rule for any address and port with the content "ab". -/
def ruleSample (proto : RuleProto) : Rule where
  sid := 1
  proto
  srcIp := ⟨[], true, false⟩
  dstIp := ⟨[], true, false⟩
  srcPort := ⟨[], true, false⟩
  dstPort := ⟨[], true, false⟩
  contents := [⟨⟨[97, 98], by simp⟩, .raw, false, none, none, none, none⟩]
  pcrePatterns := []

theorem stream_rule_fires_sample :
    ∃ met ∈ (probeSample [ruleSample .tcp] (by decide)).chunkStates 9 .fresh
        [chunkSample [120, 97], chunkSample [98, 99]],
      ruleSample .tcp ∈ (probeSample [ruleSample .tcp] (by decide)).streamHits met.2.packet met.1
        met.2.data := by
  have direction : ∀ chunk ∈ [chunkSample [120, 97], chunkSample [98, 99]],
      SameHeader (chunkSample []).packet chunk.packet := by
    intro chunk member
    rcases List.mem_pair.mp member with rfl | rfl
    · exact ⟨rfl, rfl, rfl, rfl, rfl, rfl, rfl, rfl⟩
    · exact ⟨rfl, rfl, rfl, rfl, rfl, rfl, rfl, rfl⟩
  exact (stream_rule_fires_iff List.mem_cons_self rfl ⟨rfl, rfl, rfl, rfl, rfl⟩ direction).mpr
    ⟨rfl, [120], [99], rfl⟩

/-- A rule for UDP does not fire on a TCP stream that holds its pattern. -/
theorem stream_rule_silent_on_header :
    Occurs false [97, 98] (streamOf [chunkSample [97, 98]]) ∧
      ¬∃ met ∈ (probeSample [ruleSample .udp] (by decide)).chunkStates 9 .fresh
          [chunkSample [97, 98]],
        ruleSample .udp ∈ (probeSample [ruleSample .udp] (by decide)).streamHits met.2.packet met.1
          met.2.data :=
  ⟨⟨[], [], rfl⟩, by decide⟩

end OneContent

end Idsm.EthProbe
