import Idsm.EthProbe.RuleOccurrences

/-! The left-most search of a rule's contents against every choice of their occurrences. -/

set_option autoImplicit false

namespace Idsm.EthProbe

/-- The end of the last match in each buffer, after one more match. -/
def endedAt (prevEnd : MatchBuffer → Nat) (buffer : MatchBuffer) (stop : Nat) :
    MatchBuffer → Nat :=
  fun other => if other = buffer then stop else prevEnd other

/-- The positions are occurrences of the patterns, each at its required start or later. -/
def PlacedInOrder (bufs : MatchBuffers) :
    List ContentMatch → (positions : List Nat) → (prevEnd : MatchBuffer → Nat) → Prop
  | [], [], _ => True
  | c :: rest, position :: positions, prevEnd =>
      (∃ buf, bufs.select c.buffer = some buf ∧
        StandsIn c.nocase c.pattern.val buf position) ∧
        c.start (prevEnd c.buffer) ≤ position ∧
        PlacedInOrder bufs rest positions
          (endedAt prevEnd c.buffer (position + c.pattern.val.length))
  | _, _, _ => False

/-- The content may stand anywhere from its start on. -/
def ContentMatch.Unbounded (c : ContentMatch) : Prop := c.depth = none ∧ c.within = none

section Search

variable {nocase : Bool} {needle buf : List UInt8} {c : ContentMatch}
  {prevEnd lower start index stop : Nat}

theorem standsIn_drop :
    StandsIn nocase needle (buf.drop start) index ↔
      StandsIn nocase needle buf (start + index) := by
  rw [StandsIn, StandsIn, List.drop_drop]

theorem start_mono (le : lower ≤ prevEnd) : c.start lower ≤ c.start prevEnd := by
  unfold ContentMatch.start
  cases c.distance with
  | some distance => exact Nat.add_le_add_right le _
  | none =>
      cases c.offset with
      | some offset => exact Nat.le_refl _
      | none => exact le

/-- The search finds the left-most occurrence from the start on. -/
theorem contentMatches_unbounded (unbounded : c.Unbounded) :
    contentMatches buf c prevEnd = some stop ↔
      ∃ position, c.start prevEnd ≤ position ∧ StandsIn c.nocase c.pattern.val buf position ∧
        (∀ earlier, c.start prevEnd ≤ earlier → earlier < position →
          ¬ StandsIn c.nocase c.pattern.val buf earlier) ∧
        position + c.pattern.val.length = stop := by
  have limit : c.limit buf.length prevEnd = buf.length := by
    rw [ContentMatch.limit, unbounded.1, unbounded.2]
  rw [contentMatches_eq_some, limit]
  constructor
  · rintro ⟨inside, _, _, found, search, ended⟩
    have whole : slice buf (c.start prevEnd) (buf.length - c.start prevEnd) =
        buf.drop (c.start prevEnd) := by
      rw [slice, List.take_of_length_le (by rw [List.length_drop])]
    rw [if_pos inside, whole] at search
    obtain ⟨_, stands, first⟩ := memfind_eq_some.1 search
    refine ⟨c.start prevEnd + found, Nat.le_add_right _ _, standsIn_drop.1 stands, ?_, ended⟩
    intro earlier after before there
    apply first (earlier - c.start prevEnd) (by omega)
    rwa [standsIn_drop, Nat.add_sub_cancel' after]
  · rintro ⟨position, after, stands, first, ended⟩
    have fits := stands.fits c.pattern.property
    have whole : slice buf (c.start prevEnd) (buf.length - c.start prevEnd) =
        buf.drop (c.start prevEnd) := by
      rw [slice, List.take_of_length_le (by rw [List.length_drop])]
    refine ⟨by omega, by omega, fun _ => by omega, position - c.start prevEnd, ?_, by omega⟩
    rw [if_pos (by omega), whole]
    refine memfind_eq_some.2 ⟨c.pattern.property, ?_, ?_⟩
    · rwa [standsIn_drop, Nat.add_sub_cancel' after]
    · intro earlier before there
      exact first (c.start prevEnd + earlier) (by omega) (by omega) (standsIn_drop.1 there)

/-- From a start that is not later, an occurrence makes the search succeed at it or before. -/
theorem contentMatches_of_occurrence (unbounded : c.Unbounded) {position : Nat}
    (stands : StandsIn c.nocase c.pattern.val buf position)
    (after : c.start prevEnd ≤ position) :
    ∃ stop, contentMatches buf c prevEnd = some stop ∧
      stop ≤ position + c.pattern.val.length := by
  classical
  have exist : ∃ place, c.start prevEnd ≤ place ∧ StandsIn c.nocase c.pattern.val buf place :=
    ⟨position, after, stands⟩
  have least : Nat.find exist ≤ position := Nat.find_min' exist ⟨after, stands⟩
  refine ⟨Nat.find exist + c.pattern.val.length, ?_, by omega⟩
  refine (contentMatches_unbounded unbounded).mpr
    ⟨Nat.find exist, (Nat.find_spec exist).1, (Nat.find_spec exist).2, ?_, rfl⟩
  exact fun earlier later before there => Nat.find_min exist before ⟨later, there⟩

end Search

section Contents

variable {bufs : MatchBuffers} {contents : List ContentMatch}
  {prevEnd lower : MatchBuffer → Nat}

/-- What the search finds is a choice of occurrences. -/
theorem placed_of_contentsMatch (unbounded : ∀ c ∈ contents, c.Unbounded)
    (matched : (contentsMatch bufs contents prevEnd).isSome = true) :
    ∃ positions, PlacedInOrder bufs contents positions prevEnd := by
  induction contents generalizing prevEnd with
  | nil => exact ⟨[], trivial⟩
  | cons c rest ih =>
      rw [contentsMatch] at matched
      cases selected : bufs.select c.buffer with
      | none =>
          rw [selected] at matched
          cases matched
      | some buf =>
          rw [selected] at matched
          dsimp only at matched
          cases found : contentMatches buf c (prevEnd c.buffer) with
          | none =>
              rw [found] at matched
              cases matched
          | some stop =>
              rw [found] at matched
              obtain ⟨position, after, stands, _, rfl⟩ :=
                (contentMatches_unbounded (unbounded c List.mem_cons_self)).mp found
              obtain ⟨positions, later⟩ :=
                ih (fun other member => unbounded other (List.mem_cons_of_mem _ member)) matched
              exact ⟨position :: positions, ⟨buf, selected, stands⟩, after, later⟩

/-- The search succeeds wherever occurrences can be chosen, for its ends are never later than
those of the choice. -/
theorem contentsMatch_of_placed (unbounded : ∀ c ∈ contents, c.Unbounded)
    {positions : List Nat} (chosen : PlacedInOrder bufs contents positions prevEnd)
    (le : ∀ buffer, lower buffer ≤ prevEnd buffer) :
    (contentsMatch bufs contents lower).isSome = true := by
  induction contents generalizing positions prevEnd lower with
  | nil => rfl
  | cons c rest ih =>
      cases positions with
      | nil => exact chosen.elim
      | cons position positions =>
          obtain ⟨⟨buf, selected, stands⟩, after, later⟩ := chosen
          obtain ⟨stop, found, early⟩ := contentMatches_of_occurrence
            (unbounded c List.mem_cons_self) stands
            (Nat.le_trans (start_mono (le c.buffer)) after)
          rw [contentsMatch, selected]
          dsimp only
          rw [found]
          apply ih (fun other member => unbounded other (List.mem_cons_of_mem _ member)) later
          intro buffer
          unfold endedAt
          split
          · exact early
          · exact le buffer

end Contents

/-- The greedy search misses no choice of occurrences. -/
theorem rule_matched_iff (engine : RuleEngine) {rule : Rule} (loaded : rule ∈ engine.rules)
    (unbounded : ∀ c ∈ rule.contents, c.Unbounded) (pp : ParsedPacket) (bufs : MatchBuffers) :
    rule ∈ engine.matched pp bufs ↔
      rule.matchesHeader pp = true ∧
        ∃ positions, PlacedInOrder bufs rule.contents positions fun _ => 0 := by
  rw [RuleEngine.matched, List.mem_filter, and_iff_right loaded, Rule.matches, Bool.and_eq_true]
  apply and_congr_right
  intro _
  constructor
  · exact placed_of_contentsMatch unbounded
  · rintro ⟨positions, chosen⟩
    exact contentsMatch_of_placed unbounded chosen fun _ => Nat.le_refl 0

/-- `content:"a"; content:"b"; distance:1;` for any packet. -/
def distanceRule : Rule where
  sid := 1
  proto := .any
  srcIp := ⟨[], true, false⟩
  dstIp := ⟨[], true, false⟩
  srcPort := ⟨[], true, false⟩
  dstPort := ⟨[], true, false⟩
  contents :=
    [⟨⟨[97], by decide⟩, .raw, false, none, none, none, none⟩,
      ⟨⟨[98], by decide⟩, .raw, false, none, none, some 1, none⟩]
  pcrePatterns := []

theorem rule_matched_sample :
    distanceRule ∈ RuleEngine.matched ⟨[distanceRule], by simp [distanceRule]⟩ .empty
        (rawBuffer [98, 97, 98, 98]) ↔
      distanceRule.matchesHeader .empty = true ∧
        ∃ positions, PlacedInOrder (rawBuffer [98, 97, 98, 98]) distanceRule.contents positions
          fun _ => 0 :=
  rule_matched_iff _ List.mem_cons_self
    (by simp [distanceRule, ContentMatch.Unbounded]) .empty (rawBuffer [98, 97, 98, 98])

end Idsm.EthProbe
