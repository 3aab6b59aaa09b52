import Mathlib

/-! A search that sees one chunk of a stream at a time and keeps the last elements of what
came before. -/

set_option autoImplicit false

namespace Idsm.Foundation

open List

variable {α : Type} {keep : Nat} {past chunk pattern : List α}

theorem rtake_eq_self (short : past.length ≤ keep) : past.rtake keep = past := by
  rw [List.rtake, Nat.sub_eq_zero_of_le short, List.drop_zero]

theorem length_rtake (past : List α) : (past.rtake keep).length = min past.length keep := by
  rw [List.rtake, List.length_drop]
  omega

/-- The kept elements and the new ones are the end of the stream. -/
theorem rtake_append_eq_drop :
    past.rtake keep ++ chunk = (past ++ chunk).drop (past.length - keep) := by
  rw [List.rtake, List.drop_append_of_le_length (Nat.sub_le _ _)]

theorem rtake_rtake_append : (past.rtake keep ++ chunk).rtake keep = (past ++ chunk).rtake keep := by
  rw [rtake_append_eq_drop, List.rtake, List.rtake, List.drop_drop, List.length_drop,
    List.length_append]
  congr 1
  omega

/-- A pattern that starts within what was dropped ended before the chunk. -/
theorem infix_append_iff_tail (short : pattern.length ≤ keep + 1) :
    pattern <:+: past ++ chunk ↔ pattern <:+: past ∨ pattern <:+: past.rtake keep ++ chunk := by
  constructor
  · rintro ⟨before, after, split⟩
    by_cases early : before.length + pattern.length ≤ past.length
    · left
      refine ⟨before, (past.drop (before.length + pattern.length)), ?_⟩
      have front := congrArg (List.take (before.length + pattern.length)) split
      rw [List.take_append_of_le_length early, ← List.length_append,
        List.take_append_of_le_length (Nat.le_refl _), List.take_length] at front
      rw [front, ← List.length_append, List.take_append_drop]
    · right
      have onward : past.length - keep ≤ before.length := by omega
      refine ⟨before.drop (past.length - keep), after, ?_⟩
      rw [rtake_append_eq_drop, ← split, List.append_assoc, List.append_assoc,
        List.drop_append_of_le_length onward]
  · rintro (early | late)
    · exact early.trans (List.prefix_append _ _).isInfix
    · rw [rtake_append_eq_drop] at late
      exact late.trans (List.drop_suffix _ _).isInfix

end Idsm.Foundation
