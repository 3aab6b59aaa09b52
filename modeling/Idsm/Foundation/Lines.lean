import Mathlib

/-! A byte log of newline-terminated lines, and the offsets at which a line starts. -/

set_option autoImplicit false

namespace Idsm.Foundation

def unlines (lines : List (List UInt8)) : List UInt8 := lines.flatMap (· ++ [10])

/-- Where the line with this index starts. -/
def lineOffset (lines : List (List UInt8)) (index : Nat) : Nat :=
  (unlines (lines.take index)).length

/-- Where some line starts, or the last one ends. -/
def LineBoundary (lines : List (List UInt8)) (offset : Nat) : Prop :=
  ∃ index, index ≤ lines.length ∧ offset = lineOffset lines index

section Lines

variable {lines more : List (List UInt8)} {line : List UInt8} {index first second : Nat}

@[simp] theorem unlines_nil : unlines [] = [] := rfl

@[simp] theorem unlines_cons : unlines (line :: lines) = line ++ 10 :: unlines lines := by
  simp [unlines]

theorem unlines_append : unlines (lines ++ more) = unlines lines ++ unlines more :=
  List.flatMap_append

@[simp] theorem lineOffset_zero : lineOffset lines 0 = 0 := rfl

theorem lineOffset_length : lineOffset lines lines.length = (unlines lines).length := by
  rw [lineOffset, List.take_length]

theorem lineOffset_append (inside : index ≤ lines.length) :
    lineOffset (lines ++ more) index = lineOffset lines index := by
  rw [lineOffset, List.take_append_of_le_length inside, lineOffset]

theorem lineOffset_add :
    lineOffset lines (first + second) =
      lineOffset lines first + lineOffset (lines.drop first) second := by
  rw [lineOffset, List.take_add, unlines_append, List.length_append, lineOffset, lineOffset]

theorem drop_lineOffset :
    (unlines lines).drop (lineOffset lines index) = unlines (lines.drop index) := by
  conv_lhs => rw [← List.take_append_drop index lines, unlines_append]
  rw [lineOffset, List.take_append_drop, List.drop_left]

theorem length_le_length_unlines : lines.length ≤ (unlines lines).length := by
  induction lines with
  | nil => exact Nat.le_refl 0
  | cons line lines ih =>
      rw [unlines_cons, List.length_append, List.length_cons, List.length_cons]
      omega

theorem lineOffset_lt (order : first < second) (inside : second ≤ lines.length) :
    lineOffset lines first < lineOffset lines second := by
  obtain ⟨gap, rfl⟩ := Nat.exists_eq_add_of_lt order
  rw [Nat.add_assoc, lineOffset_add]
  have left : gap + 1 ≤ (lines.drop first).length := by
    rw [List.length_drop]
    omega
  have bytes := @length_le_length_unlines ((lines.drop first).take (gap + 1))
  rw [List.length_take_of_le left] at bytes
  change _ < _ + (unlines ((lines.drop first).take (gap + 1))).length
  omega

theorem lineOffset_lt_iff (firstInside : first ≤ lines.length) (secondInside : second ≤ lines.length) :
    lineOffset lines first < lineOffset lines second ↔ first < second := by
  constructor
  · intro shorter
    by_contra order
    obtain rfl | later := Nat.eq_or_lt_of_le (Nat.le_of_not_lt order)
    · exact Nat.lt_irrefl _ shorter
    · exact Nat.lt_asymm shorter (lineOffset_lt later firstInside)
  · intro order
    exact lineOffset_lt order secondInside

theorem lineOffset_le_length : lineOffset lines index ≤ (unlines lines).length := by
  conv_rhs => rw [← List.take_append_drop index lines, unlines_append]
  rw [List.length_append, lineOffset]
  exact Nat.le_add_right _ _

theorem LineBoundary.zero : LineBoundary lines 0 := ⟨0, Nat.zero_le _, rfl⟩

theorem LineBoundary.append {offset : Nat} (boundary : LineBoundary lines offset) :
    LineBoundary (lines ++ more) offset := by
  obtain ⟨index, inside, rfl⟩ := boundary
  refine ⟨index, ?_, (lineOffset_append inside).symm⟩
  rw [List.length_append]
  exact Nat.le_add_right_of_le inside

theorem LineBoundary.le_length {offset : Nat} (boundary : LineBoundary lines offset) :
    offset ≤ (unlines lines).length := by
  obtain ⟨index, _, rfl⟩ := boundary
  exact lineOffset_le_length

end Lines

/-- The log is these lines, the last one with its newline or torn before it. -/
inductive Holds : List (List UInt8) → List UInt8 → Prop where
  | nil : Holds [] []
  | torn {line : List UInt8} (nonempty : line ≠ []) (oneLine : 10 ∉ line) : Holds [line] line
  | cons {line : List UInt8} {lines : List (List UInt8)} {rest : List UInt8}
      (nonempty : line ≠ []) (oneLine : 10 ∉ line) (later : Holds lines rest) :
      Holds (line :: lines) (line ++ 10 :: rest)

/-- Where the line with this index starts in such a log, or the log ends. -/
def offsetIn (lines : List (List UInt8)) (log : List UInt8) (index : Nat) : Nat :=
  min (lineOffset lines index) log.length

section Torn

variable {lines : List (List UInt8)} {line log rest : List UInt8} {index first second count : Nat}

@[simp] theorem offsetIn_zero : offsetIn lines log 0 = 0 := by
  rw [offsetIn, lineOffset_zero, Nat.zero_min]

@[simp] theorem offsetIn_nil : offsetIn lines [] index = 0 := by
  rw [offsetIn, List.length_nil, Nat.min_zero]

theorem offsetIn_torn : offsetIn [line] line (index + 1) = line.length := by
  rw [offsetIn, lineOffset, List.take_succ_cons, unlines_cons, List.length_append]
  omega

theorem offsetIn_cons :
    offsetIn (line :: lines) (line ++ 10 :: rest) (index + 1) =
      line.length + 1 + offsetIn lines rest index := by
  rw [offsetIn, offsetIn, lineOffset, List.take_succ_cons, unlines_cons, List.length_append,
    List.length_append, List.length_cons, List.length_cons, lineOffset]
  omega

theorem offsetIn_le : offsetIn lines log index ≤ log.length := Nat.min_le_right _ _

theorem offsetIn_min (lines : List (List UInt8)) (log : List UInt8) (index : Nat) :
    offsetIn lines log (min index lines.length) = offsetIn lines log index := by
  obtain inside | beyond := Nat.le_total index lines.length
  · rw [Nat.min_eq_left inside]
  · rw [Nat.min_eq_right beyond, offsetIn, offsetIn, lineOffset_length, lineOffset,
      List.take_of_length_le beyond]

theorem drop_line : (line ++ 10 :: rest).drop (line.length + 1 + count) = rest.drop count := by
  rw [Nat.add_assoc, List.drop_length_add_append, Nat.add_comm, List.drop_succ_cons]

namespace Holds

theorem eq_nil (holds : Holds [] log) : log = [] := by
  cases holds
  rfl

theorem offsetIn_length (holds : Holds lines log) : offsetIn lines log lines.length = log.length := by
  induction holds with
  | nil => rfl
  | torn nonempty oneLine => exact offsetIn_torn
  | cons nonempty oneLine later ih =>
      rw [List.length_cons, offsetIn_cons, ih, List.length_append, List.length_cons]
      omega

theorem drop (holds : Holds lines log) (index : Nat) :
    Holds (lines.drop index) (log.drop (offsetIn lines log index)) := by
  induction holds generalizing index with
  | nil =>
      rw [List.drop_nil, List.drop_nil]
      exact .nil
  | @torn line nonempty oneLine =>
      cases index with
      | zero => exact .torn nonempty oneLine
      | succ index =>
          rw [offsetIn_torn, List.drop_succ_cons, List.drop_nil, List.drop_length]
          exact .nil
  | @cons line lines rest nonempty oneLine later ih =>
      cases index with
      | zero => exact .cons nonempty oneLine later
      | succ index =>
          rw [offsetIn_cons, List.drop_succ_cons, drop_line]
          exact ih index

theorem offsetIn_add (holds : Holds lines log) (first second : Nat) :
    offsetIn lines log (first + second) = offsetIn lines log first +
      offsetIn (lines.drop first) (log.drop (offsetIn lines log first)) second := by
  induction holds generalizing first with
  | nil => simp only [offsetIn_nil, List.drop_nil, Nat.add_zero]
  | @torn line nonempty oneLine =>
      cases first with
      | zero => rw [Nat.zero_add, offsetIn_zero, List.drop_zero, List.drop_zero, Nat.zero_add]
      | succ first =>
          rw [offsetIn_torn, List.drop_length, offsetIn_nil, Nat.add_right_comm, offsetIn_torn,
            Nat.add_zero]
  | @cons line lines rest nonempty oneLine later ih =>
      cases first with
      | zero => rw [Nat.zero_add, offsetIn_zero, List.drop_zero, List.drop_zero, Nat.zero_add]
      | succ first =>
          rw [Nat.add_right_comm, offsetIn_cons, offsetIn_cons, List.drop_succ_cons, drop_line,
            ih first, Nat.add_assoc (line.length + 1)]

/-- A log with lines left is not empty. -/
theorem positive (holds : Holds lines log) (nonempty : lines ≠ []) (more : 0 < count) :
    0 < offsetIn lines log count := by
  obtain ⟨index, rfl⟩ := Nat.exists_eq_succ_of_ne_zero (Nat.ne_of_gt more)
  cases holds with
  | nil => exact absurd rfl nonempty
  | torn filled oneLine =>
      rw [Nat.succ_eq_add_one, offsetIn_torn]
      exact List.length_pos_iff.mpr filled
  | cons filled oneLine later =>
      rw [Nat.succ_eq_add_one, offsetIn_cons]
      omega

theorem offsetIn_lt (holds : Holds lines log) (order : first < second)
    (inside : second ≤ lines.length) : offsetIn lines log first < offsetIn lines log second := by
  obtain ⟨gap, rfl⟩ := Nat.exists_eq_add_of_lt order
  rw [Nat.add_assoc, holds.offsetIn_add]
  have left : lines.drop first ≠ [] := by
    intro none
    have beyond := List.drop_eq_nil_iff.mp none
    omega
  exact Nat.lt_add_of_pos_right ((holds.drop first).positive left (Nat.succ_pos gap))

theorem offsetIn_lt_iff (holds : Holds lines log) (firstInside : first ≤ lines.length)
    (secondInside : second ≤ lines.length) :
    offsetIn lines log first < offsetIn lines log second ↔ first < second := by
  constructor
  · intro shorter
    by_contra order
    obtain rfl | later := Nat.eq_or_lt_of_le (Nat.le_of_not_lt order)
    · exact Nat.lt_irrefl _ shorter
    · exact Nat.lt_asymm shorter (holds.offsetIn_lt later firstInside)
  · intro order
    exact holds.offsetIn_lt order secondInside

/-- A log that ends with a newline is whole. -/
theorem whole (holds : Holds lines log) (ended : log = [] ∨ log.getLast? = some 10) :
    log = unlines lines := by
  induction holds with
  | nil => rfl
  | torn nonempty oneLine =>
      obtain empty | last := ended
      · exact absurd empty nonempty
      · exact absurd (List.mem_of_getLast? last) oneLine
  | @cons line lines rest nonempty oneLine later ih =>
      rw [unlines_cons]
      congr 2
      apply ih
      cases rest with
      | nil => exact .inl rfl
      | cons byte rest =>
          obtain empty | last := ended
          · exact absurd empty (by simp)
          · rw [List.getLast?_append, List.getLast?_cons_cons] at last
            exact .inr (by simpa using last)

/-- Another log may stand behind a whole one. -/
theorem append {more : List (List UInt8)} {added : List UInt8} (holds : Holds lines log)
    (whole : log = unlines lines) (behind : Holds more added) :
    Holds (lines ++ more) (log ++ added) := by
  induction holds with
  | nil => exact behind
  | @torn line nonempty oneLine =>
      have longer := congrArg List.length whole
      rw [unlines_cons, List.length_append, List.length_cons] at longer
      omega
  | @cons line lines rest nonempty oneLine later ih =>
      rw [unlines_cons] at whole
      have same := List.append_cancel_left whole
      rw [List.append_assoc]
      exact .cons nonempty oneLine (ih (List.cons.inj same).2)

theorem length_le (holds : Holds lines log) : lines.length ≤ log.length := by
  induction holds with
  | nil => exact Nat.le_refl 0
  | torn nonempty oneLine => exact List.length_pos_iff.mpr nonempty
  | cons nonempty oneLine later ih =>
      rw [List.length_append, List.length_cons, List.length_cons]
      omega

end Holds

theorem holds_unlines (clean : ∀ line ∈ lines, line ≠ [] ∧ 10 ∉ line) :
    Holds lines (unlines lines) := by
  induction lines with
  | nil => exact .nil
  | cons line lines ih =>
      obtain ⟨⟨nonempty, oneLine⟩, later⟩ := List.forall_mem_cons.mp clean
      rw [unlines_cons]
      exact .cons nonempty oneLine (ih later)

end Torn

end Idsm.Foundation
