import Mathlib

/-! Pieces of a stream with the positions at which they stand in it. -/

set_option autoImplicit false

namespace Idsm.Foundation

variable {α : Type}

/-- The data is what the stream holds from the position on. -/
def StandsAt (stream : List α) (position : Nat) (data : List α) : Prop :=
  data <+: stream.drop position

instance [DecidableEq α] (stream : List α) (position : Nat) (data : List α) :
    Decidable (StandsAt stream position data) :=
  inferInstanceAs (Decidable (data <+: stream.drop position))

/-- Every place of the stream lies in one of the pieces. -/
def Covered (length : Nat) (pieces : List (Nat × List α)) : Prop :=
  ∀ index < length, ∃ piece ∈ pieces, piece.1 ≤ index ∧ index < piece.1 + piece.2.length

section StandsAt

variable {stream data : List α} {position : Nat}

theorem StandsAt.end_le (stands : StandsAt stream position data) (something : data ≠ []) :
    position + data.length ≤ stream.length := by
  have fits := stands.length_le
  have positive := List.length_pos_iff.mpr something
  rw [List.length_drop] at fits
  omega

theorem StandsAt.eq_take (stands : StandsAt stream position data) :
    data = (stream.drop position).take data.length :=
  List.prefix_iff_eq_take.mp stands

/-- What a piece adds to all that stands before a place within it. -/
theorem StandsAt.take_append {place : Nat} (stands : StandsAt stream position data)
    (started : position ≤ place) (within : place ≤ position + data.length) :
    stream.take place ++ data.drop (place - position) =
      stream.take (position + data.length) := by
  have tail : data.drop (place - position) =
      (stream.drop place).take (position + data.length - place) := by
    calc data.drop (place - position)
        = ((stream.drop position).take data.length).drop (place - position) := by
          rw [← stands.eq_take]
      _ = (stream.drop place).take (position + data.length - place) := by
          rw [List.drop_take, List.drop_drop]
          congr 1
          · omega
          · congr 1
            omega
  have split : position + data.length = place + (position + data.length - place) := by omega
  rw [tail, ← List.take_add, ← split]

end StandsAt

section Reading

variable {place : Nat} {piece : Nat × List α} {pieces earlier later : List (Nat × List α)}

/-- What a piece holds at a place. -/
def heldAt (place : Nat) (piece : Nat × List α) : Option α :=
  if piece.1 ≤ place then piece.2[place - piece.1]? else none

/-- What the first of the pieces that reach a place holds there. -/
def firstHeld (pieces : List (Nat × List α)) (place : Nat) : Option α :=
  pieces.findSome? (heldAt place)

theorem heldAt_eq_none :
    heldAt place piece = none ↔ place < piece.1 ∨ piece.1 + piece.2.length ≤ place := by
  unfold heldAt
  split
  next started =>
    rw [List.getElem?_eq_none_iff]
    omega
  next late => exact iff_of_true rfl (.inl (Nat.lt_of_not_le late))

theorem heldAt_of_started (started : piece.1 ≤ place) :
    heldAt place piece = piece.2[place - piece.1]? := if_pos started

theorem firstHeld_cons : firstHeld (piece :: pieces) place =
    (heldAt place piece).or (firstHeld pieces place) := by
  rw [firstHeld, List.findSome?_cons]
  cases heldAt place piece <;> rfl

theorem firstHeld_append : firstHeld (earlier ++ later) place =
    (firstHeld earlier place).or (firstHeld later place) := List.findSome?_append

theorem firstHeld_eq_none : firstHeld pieces place = none ↔
    ∀ piece ∈ pieces, heldAt place piece = none := List.findSome?_eq_none_iff

end Reading

end Idsm.Foundation
