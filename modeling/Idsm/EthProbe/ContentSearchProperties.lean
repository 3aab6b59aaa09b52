import Idsm.EthProbe.RuleOccurrences

/-! The search for a content with every read checked. Start and limit come from different
options, and their difference is an unsigned number. -/

set_option autoImplicit false

namespace Idsm.EthProbe

/-- The bytes of a buffer in memory, fewer than half of what `size_t` counts. -/
abbrev Buffer := { bytes : List UInt8 // bytes.length < 2 ^ 63 }

/-- The inner loop of the search; `none` is a read past the end. -/
def startsWithChecked (nocase : Bool) : (needle hay : List UInt8) → Option Bool
  | [], _ => some true
  | _ :: _, [] => none
  | b :: needle, a :: hay =>
      if folded nocase a == folded nocase b then startsWithChecked nocase needle hay
      else some false

/-- `memfind` in a hay that is said to have `room` bytes from here on. -/
def memfindChecked (nocase : Bool) (needle : List UInt8) :
    (hay : List UInt8) → (room index : Nat) → Option (Option Nat)
  | [], room, index =>
      if room < needle.length then some none
      else (startsWithChecked nocase needle []).map fun _ => some index
  | a :: hay, room, index =>
      if room < needle.length then some none
      else
        match startsWithChecked nocase needle (a :: hay) with
        | none => none
        | some true => some (some index)
        | some false => memfindChecked nocase needle hay (room - 1) (index + 1)

/-- `content_matches` with the subtraction of `size_t`. -/
def contentMatchesChecked (buf : Buffer) (c : ContentMatch) (prevEnd : Nat) :
    Option (Option Nat) :=
  let start := c.start prevEnd
  let limit := c.limit buf.val.length prevEnd
  let size := c.pattern.val.length
  let room := (limit + 2 ^ 64 - start) % 2 ^ 64
  if buf.val.length < start ∨ limit < size ∨ room < size then some none
  else
    (memfindChecked c.nocase c.pattern.val (buf.val.drop start) room 0).map
      (Option.map fun found => start + found + size)

/-- No read is past the end, and a match lies in the window of the options. -/
structure SearchesInside (buf : Buffer) (c : ContentMatch) (prevEnd : Nat) : Prop where
  reads : contentMatchesChecked buf c prevEnd ≠ none
  inside : ∀ stop, contentMatchesChecked buf c prevEnd = some (some stop) →
    stop ≤ buf.val.length ∧ c.start prevEnd + c.pattern.val.length ≤ stop ∧
      stop ≤ c.limit buf.val.length prevEnd

/-- The options end the window before its start, in the buffer and late enough for the
pattern's length. -/
def ContentMatch.Inverted (c : ContentMatch) (len prevEnd : Nat) : Prop :=
  c.limit len prevEnd < c.start prevEnd ∧ c.start prevEnd ≤ len ∧
    c.pattern.val.length ≤ c.limit len prevEnd

section Search

variable {nocase : Bool} {needle hay : List UInt8} {room index found : Nat}

theorem startsWithChecked_isSome (long : needle.length ≤ hay.length) :
    startsWithChecked nocase needle hay ≠ none := by
  induction needle generalizing hay with
  | nil => exact nofun
  | cons b needle ih =>
      cases hay with
      | nil => exact absurd long (by simp)
      | cons a hay =>
          rw [startsWithChecked]
          split
          · exact ih (Nat.le_of_succ_le_succ long)
          · exact nofun

theorem startsWithChecked_eq {answer : Bool}
    (checked : startsWithChecked nocase needle hay = some answer) :
    startsWith nocase needle hay = answer := by
  induction needle generalizing hay with
  | nil => exact Option.some.inj checked
  | cons b needle ih =>
      cases hay with
      | nil => cases checked
      | cons a hay =>
          rw [startsWithChecked] at checked
          rw [startsWith]
          split at checked
          next same => rw [same, Bool.true_and, ih checked]
          next other => rw [Bool.eq_false_iff.mpr other, Bool.false_and, Option.some.inj checked]

/-- In a hay that holds the room it is said to have, every read is inside. -/
theorem memfindChecked_inside (holds : room ≤ hay.length) :
    ∃ result, memfindChecked nocase needle hay room index = some result ∧
      ∀ found ∈ result, index ≤ found ∧ found + needle.length ≤ index + room := by
  induction hay generalizing room index with
  | nil =>
      obtain rfl : room = 0 := Nat.le_zero.mp holds
      rw [memfindChecked]
      cases needle with
      | nil => exact ⟨some index, rfl, fun found same => by simp_all⟩
      | cons b needle => exact ⟨none, rfl, nofun⟩
  | cons a hay ih =>
      rw [memfindChecked]
      split
      next => exact ⟨none, rfl, nofun⟩
      next fits =>
        cases outcome : startsWithChecked nocase needle (a :: hay) with
        | none => exact absurd outcome (startsWithChecked_isSome (by omega))
        | some answer =>
            cases answer with
            | true =>
                refine ⟨some index, rfl, fun found same => ?_⟩
                obtain rfl := Option.some.inj same
                omega
            | false =>
                have behind : room - 1 ≤ hay.length := by
                  rw [List.length_cons] at holds
                  omega
                obtain ⟨result, searched, bounds⟩ := @ih (room - 1) (index + 1) behind
                refine ⟨result, searched, fun found same => ?_⟩
                obtain ⟨later, short⟩ := bounds found same
                cases room with
                | zero =>
                    -- an empty pattern in no room would have been found
                    have empty : needle = [] := List.eq_nil_of_length_eq_zero (by omega)
                    subst empty
                    cases outcome
                | succ room => omega

/-- Where the room is larger than the hay by a pattern, the search finds the pattern or reads
past the end. -/
theorem memfindChecked_beyond (something : needle ≠ [])
    (wide : hay.length + needle.length ≤ room) :
    memfindChecked nocase needle hay room index = none ∨
      ∃ found, memfindChecked nocase needle hay room index = some (some found) := by
  induction hay generalizing room index with
  | nil =>
      rw [memfindChecked, if_neg (by omega)]
      cases needle with
      | nil => exact absurd rfl something
      | cons b needle => exact .inl rfl
  | cons a hay ih =>
      rw [List.length_cons] at wide
      rw [memfindChecked, if_neg (by omega)]
      cases startsWithChecked nocase needle (a :: hay) with
      | none => exact .inl rfl
      | some answer =>
          cases answer with
          | true => exact .inr ⟨index, rfl⟩
          | false => exact ih (by omega)

/-- What the checked search answers is the first occurrence that the room holds. -/
theorem memfindChecked_first {result : Option Nat} (something : needle ≠ [])
    (searched : memfindChecked nocase needle hay room index = some result) :
    (∀ found ∈ result, index ≤ found ∧ StandsIn nocase needle hay (found - index) ∧
      ∀ earlier < found - index, ¬StandsIn nocase needle hay earlier) ∧
    (result = none → ∀ place, place + needle.length ≤ room →
      ¬StandsIn nocase needle hay place) := by
  induction hay generalizing room index with
  | nil =>
      rw [memfindChecked] at searched
      split at searched
      next short =>
        obtain rfl := Option.some.inj searched
        exact ⟨nofun, fun _ place fits => by omega⟩
      next =>
        cases needle with
        | nil => exact absurd rfl something
        | cons b needle => cases searched
  | cons a hay ih =>
      rw [memfindChecked] at searched
      split at searched
      next short =>
        obtain rfl := Option.some.inj searched
        exact ⟨nofun, fun _ place fits => by omega⟩
      next =>
        cases answer : startsWithChecked nocase needle (a :: hay) with
        | none =>
            rw [answer] at searched
            cases searched
        | some here =>
            rw [answer] at searched
            have checked := startsWithChecked_eq answer
            cases here with
            | true =>
                obtain rfl := Option.some.inj searched
                refine ⟨fun found same => ?_, nofun⟩
                obtain rfl := Option.some.inj same
                rw [Nat.sub_self]
                exact ⟨Nat.le_refl _, startsWith_iff.1 checked, nofun⟩
            | false =>
                have missed : ¬StandsIn nocase needle (a :: hay) 0 := by
                  intro stands
                  have found := startsWith_iff.2 stands
                  rw [List.drop_zero, checked] at found
                  cases found
                obtain ⟨first, nowhere⟩ := ih searched
                refine ⟨fun found same => ?_, fun none place fits => ?_⟩
                · obtain ⟨later, stands, before⟩ := first found same
                  have next : found - index = found - (index + 1) + 1 := by omega
                  rw [next]
                  refine ⟨by omega, stands, fun earlier less => ?_⟩
                  cases earlier with
                  | zero => exact missed
                  | succ earlier => exact before earlier (by omega)
                · cases place with
                  | zero => exact missed
                  | succ place => exact nowhere none place (by omega)

end Search

section Contents

variable {buf : Buffer} {c : ContentMatch} {prevEnd : Nat}

theorem ContentMatch.limit_le (c : ContentMatch) (len prevEnd : Nat) :
    c.limit len prevEnd ≤ len := by
  unfold ContentMatch.limit
  cases c.within with
  | none =>
      cases c.depth with
      | none => exact Nat.le_refl _
      | some depth => exact Nat.min_le_left _ _
  | some within =>
      cases c.depth with
      | none => exact Nat.min_le_left _ _
      | some depth => exact (Nat.min_le_left _ _).trans (Nat.min_le_left _ _)

/-- The unsigned room is the window where the window is not inverted, and wraps otherwise. -/
theorem room_eq {start limit : Nat} (small : limit < 2 ^ 63) (inside : start < 2 ^ 63) :
    (start ≤ limit → (limit + 2 ^ 64 - start) % 2 ^ 64 = limit - start) ∧
      (limit < start → (limit + 2 ^ 64 - start) % 2 ^ 64 = limit + 2 ^ 64 - start) := by
  omega

/-- The checked search by the place of its window. -/
theorem contentMatchesChecked_cases (buf : Buffer) (c : ContentMatch) (prevEnd : Nat) :
    (contentMatchesChecked buf c prevEnd = some none ∧
        (buf.val.length < c.start prevEnd ∨
          c.limit buf.val.length prevEnd < c.pattern.val.length ∨
          c.start prevEnd ≤ c.limit buf.val.length prevEnd ∧
            c.limit buf.val.length prevEnd - c.start prevEnd < c.pattern.val.length)) ∨
      ∃ room, c.start prevEnd ≤ buf.val.length ∧
        c.pattern.val.length ≤ c.limit buf.val.length prevEnd ∧
        (c.start prevEnd ≤ c.limit buf.val.length prevEnd →
          room = c.limit buf.val.length prevEnd - c.start prevEnd ∧ c.pattern.val.length ≤ room) ∧
        (c.limit buf.val.length prevEnd < c.start prevEnd →
          buf.val.length - c.start prevEnd + c.pattern.val.length ≤ room) ∧
        contentMatchesChecked buf c prevEnd =
          (memfindChecked c.nocase c.pattern.val (buf.val.drop (c.start prevEnd)) room 0).map
            (Option.map fun found => c.start prevEnd + found + c.pattern.val.length) := by
  have short := buf.property
  have within := c.limit_le buf.val.length prevEnd
  unfold contentMatchesChecked
  dsimp only
  generalize c.limit buf.val.length prevEnd = limit at *
  generalize c.start prevEnd = start at *
  split
  next out =>
    refine .inl ⟨rfl, ?_⟩
    rcases out with out | out | out
    · exact .inl out
    · exact .inr (.inl out)
    · by_cases beyond : buf.val.length < start
      · exact .inl beyond
      · obtain ⟨straight, inverted⟩ := @room_eq start limit (by omega) (by omega)
        by_cases order : start ≤ limit
        · rw [straight order] at out
          exact .inr (.inr ⟨order, out⟩)
        · rw [inverted (by omega)] at out
          exact .inr (.inl (by omega))
  next inside =>
    rw [not_or, not_or] at inside
    obtain ⟨first, second, third⟩ := inside
    obtain ⟨straight, inverted⟩ := @room_eq start limit (by omega) (by omega)
    refine .inr ⟨_, by omega, by omega, fun order => ?_, fun order => ?_, rfl⟩
    · rw [straight order] at third ⊢
      exact ⟨rfl, by omega⟩
    · rw [inverted order]
      omega

/-- For every buffer, content and earlier end: all reads are in the buffer and every match is
in the window exactly when the options do not invert it. -/
theorem searchesInside_iff (buf : Buffer) (c : ContentMatch) (prevEnd : Nat) :
    SearchesInside buf c prevEnd ↔ ¬c.Inverted buf.val.length prevEnd := by
  unfold ContentMatch.Inverted
  obtain ⟨nothing, out⟩ | ⟨room, first, second, straight, inverted, searched⟩ :=
    contentMatchesChecked_cases buf c prevEnd
  · refine iff_of_true ⟨by rw [nothing]; exact nofun, fun stop found => ?_⟩ (by omega)
    rw [nothing] at found
    cases found
  · by_cases order : c.start prevEnd ≤ c.limit buf.val.length prevEnd
    · obtain ⟨rfl, fits⟩ := straight order
      have within := c.limit_le buf.val.length prevEnd
      have holds : c.limit buf.val.length prevEnd - c.start prevEnd ≤
          (buf.val.drop (c.start prevEnd)).length := by
        rw [List.length_drop]
        omega
      obtain ⟨result, found, bounds⟩ :=
        @memfindChecked_inside c.nocase c.pattern.val _ _ 0 holds
      rw [found, Option.map_some] at searched
      refine iff_of_true ⟨by rw [searched]; exact nofun, fun stop matched => ?_⟩ (by omega)
      rw [searched] at matched
      obtain ⟨place, there, rfl⟩ := Option.map_eq_some_iff.mp (Option.some.inj matched)
      obtain ⟨_, ends⟩ := bounds place there
      omega
    · have wide := inverted (by omega)
      rw [← List.length_drop] at wide
      refine iff_of_false (fun inside => ?_) fun kept => kept ⟨by omega, first, second⟩
      rcases @memfindChecked_beyond c.nocase c.pattern.val _ room 0 c.pattern.property wide with
        faulted | ⟨place, found⟩
      · rw [faulted] at searched
        exact inside.reads searched
      · rw [found] at searched
        have ends : c.start prevEnd + place + c.pattern.val.length ≤
            c.limit buf.val.length prevEnd := (inside.inside _ searched).2.2
        omega

/-- Where no read is past the end, the answer is that of the search with Lean's lists. -/
theorem contentMatches_of_checked {result : Option Nat}
    (checked : contentMatchesChecked buf c prevEnd = some result) :
    contentMatches buf.val c prevEnd = result := by
  unfold contentMatches
  dsimp only
  obtain ⟨nothing, out⟩ | ⟨room, first, second, straight, inverted, searched⟩ :=
    contentMatchesChecked_cases buf c prevEnd
  · rw [nothing] at checked
    rw [if_pos out]
    exact Option.some.inj checked
  · rw [searched] at checked
    obtain ⟨answer, found, rfl⟩ := Option.map_eq_some_iff.mp checked
    obtain ⟨stands, nowhere⟩ := memfindChecked_first c.pattern.property found
    have kept : ¬(buf.val.length < c.start prevEnd ∨
        c.limit buf.val.length prevEnd < c.pattern.val.length ∨
        c.start prevEnd ≤ c.limit buf.val.length prevEnd ∧
          c.limit buf.val.length prevEnd - c.start prevEnd < c.pattern.val.length) := by
      rintro (out | out | ⟨order, out⟩)
      · omega
      · omega
      · obtain ⟨_, fits⟩ := straight order
        omega
    rw [if_neg kept]
    congr 1
    by_cases order : c.start prevEnd ≤ c.limit buf.val.length prevEnd
    · obtain ⟨rfl, _⟩ := straight order
      have holds : c.limit buf.val.length prevEnd - c.start prevEnd ≤
          (buf.val.drop (c.start prevEnd)).length := by
        rw [List.length_drop]
        have within := c.limit_le buf.val.length prevEnd
        omega
      obtain ⟨other, again, bounds⟩ := @memfindChecked_inside c.nocase c.pattern.val _ _ 0 holds
      obtain rfl := Option.some.inj (found.symm.trans again)
      rw [if_pos order, slice]
      cases answer with
      | some place =>
          obtain ⟨_, there, before⟩ := stands place rfl
          obtain ⟨_, ends⟩ := bounds place rfl
          refine memfind_eq_some.2 ⟨c.pattern.property,
            (standsIn_take c.pattern.property).mpr ⟨there, by omega⟩, fun earlier less again => ?_⟩
          exact before earlier less ((standsIn_take c.pattern.property).mp again).1
      | none =>
          cases outcome : memfind ((buf.val.drop (c.start prevEnd)).take
              (c.limit buf.val.length prevEnd - c.start prevEnd)) c.pattern.val c.nocase with
          | none => rfl
          | some place =>
              obtain ⟨there, fits⟩ :=
                (standsIn_take c.pattern.property).mp (memfind_eq_some.1 outcome).2.1
              exact absurd there (nowhere rfl place fits)
    · have wide := inverted (by omega)
      rw [← List.length_drop] at wide
      rw [if_neg order]
      rcases @memfindChecked_beyond c.nocase c.pattern.val _ room 0 c.pattern.property wide with
        faulted | ⟨place, again⟩
      · rw [faulted] at found
        cases found
      · obtain rfl := Option.some.inj (found.symm.trans again)
        obtain ⟨_, there, before⟩ := stands place rfl
        exact memfind_eq_some.2 ⟨c.pattern.property, there, before⟩

/-- `content:"AB"; depth:2` as the second content of a rule, after a match that ended at 4. -/
def laterContent : ContentMatch :=
  ⟨⟨[65, 66], by decide⟩, .raw, false, none, some 2, none, none⟩

theorem laterContent_reads_past_the_end :
    ¬SearchesInside ⟨[88, 88, 88, 88, 88, 88], by decide⟩ laterContent 4 := by
  intro inside
  exact inside.reads (by decide)

end Contents

end Idsm.EthProbe
