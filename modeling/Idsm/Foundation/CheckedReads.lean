import Mathlib

/-! Reads of a buffer through pointers with lengths, where an index behind the buffer, a
subtraction below zero and a loop with too many passes are faults. -/

set_option autoImplicit false

namespace Idsm.Foundation

inductive ReadFault where
  | outside (index : Nat)
  | negative
  | unfinished
  deriving DecidableEq, Repr

/-- A computation that reads the buffer. -/
abbrev Checked (α : Type) := Except ReadFault α

namespace Checked

variable {α β : Type}

theorem ok_bind (value : α) (next : α → Checked β) :
    ((.ok value : Checked α) >>= next) = next value := rfl

end Checked

/-- The difference of two sizes, which are not signed. -/
def checkedSub (size less : Nat) : Checked Nat :=
  if less ≤ size then .ok (size - less) else .error .negative

theorem checkedSub_ok {size less : Nat} (there : less ≤ size) :
    checkedSub size less = .ok (size - less) :=
  if_pos there

/-- A pointer into a buffer, and how many elements it is said to point to. -/
structure View where
  start : Nat
  length : Nat
  deriving DecidableEq, Repr

namespace View

variable {β : Type} (buffer : List β) (view : View) {other : View} {skipped count index : Nat}

def null : View := ⟨0, 0⟩

def whole : View := ⟨0, buffer.length⟩

/-- A pointer alone: up to the end of the buffer. -/
def behind (start : Nat) : View := ⟨start, buffer.length - start⟩

/-- What is pointed to lies in a buffer of that size. -/
def Inside (size : Nat) : Prop := view.start + view.length ≤ size

/-- One view lies in another. -/
def Within (outer : View) : Prop :=
  outer.start ≤ view.start ∧ view.start + view.length ≤ outer.start + outer.length

def bytes : List β := (buffer.drop view.start).take view.length

/-- Any index below the size of the buffer may be read, whatever the length of the view. -/
def read (index : Nat) : Checked β :=
  match buffer[view.start + index]? with
  | some value => .ok value
  | none => .error (.outside (view.start + index))

/-- Many elements at once, as `memcpy` and `memcmp` read them. -/
def copy (skipped count : Nat) : Checked (List β) :=
  if view.start + skipped + count ≤ buffer.length then
    .ok ((buffer.drop (view.start + skipped)).take count)
  else .error (.outside (view.start + skipped + count))

variable {buffer view}

theorem null_inside (size : Nat) : null.Inside size := Nat.zero_le _

theorem bytes_null : null.bytes buffer = [] := List.take_zero

theorem whole_inside : (whole buffer).Inside buffer.length := Nat.le_of_eq (Nat.zero_add _)

theorem bytes_whole : (whole buffer).bytes buffer = buffer := by
  rw [bytes, whole, List.drop_zero, List.take_length]

theorem behind_inside {start : Nat} (there : start ≤ buffer.length) :
    (behind buffer start).Inside buffer.length :=
  Nat.le_of_eq (Nat.add_sub_cancel' there)

theorem bytes_behind (start : Nat) : (behind buffer start).bytes buffer = buffer.drop start := by
  apply List.take_of_length_le
  rw [List.length_drop]
  exact Nat.le_refl _

theorem Within.inside {size : Nat} (within : view.Within other) (inside : other.Inside size) :
    view.Inside size :=
  Nat.le_trans within.2 inside

theorem Within.trans {outer : View} (within : view.Within other) (wider : other.Within outer) :
    view.Within outer :=
  ⟨Nat.le_trans wider.1 within.1, Nat.le_trans within.2 wider.2⟩

theorem length_bytes (inside : view.Inside buffer.length) :
    (view.bytes buffer).length = view.length := by
  unfold Inside at inside
  rw [bytes, List.length_take, List.length_drop]
  omega

theorem read_ok (default : β) (inside : view.Inside buffer.length) (there : index < view.length) :
    view.read buffer index = .ok ((view.bytes buffer).getD index default) := by
  unfold Inside at inside
  have stands : view.start + index < buffer.length := by omega
  have same : (view.bytes buffer)[index]? = some (buffer[view.start + index]) := by
    rw [bytes, List.getElem?_take_of_lt there, List.getElem?_drop, List.getElem?_eq_getElem stands]
  rw [read, List.getElem?_eq_getElem stands, List.getD_eq_getElem?_getD, same]
  rfl

theorem bytes_rest (skipped : Nat) :
    (⟨view.start + skipped, view.length - skipped⟩ : View).bytes buffer =
      (view.bytes buffer).drop skipped := by
  rw [bytes, bytes, List.drop_take, List.drop_drop]

theorem bytes_part (part : skipped + count ≤ view.length) :
    (⟨view.start + skipped, count⟩ : View).bytes buffer =
      ((view.bytes buffer).drop skipped).take count := by
  rw [bytes, bytes, List.drop_take, List.drop_drop, List.take_take, Nat.min_eq_left (by omega)]

theorem copy_ok (inside : view.Inside buffer.length) (part : skipped + count ≤ view.length) :
    view.copy buffer skipped count = .ok (((view.bytes buffer).drop skipped).take count) := by
  unfold Inside at inside
  rw [copy, if_pos (by omega), ← bytes_part part]
  rfl

theorem part_within (part : skipped + count ≤ view.length) :
    (⟨view.start + skipped, count⟩ : View).Within view :=
  ⟨Nat.le_add_right _ _, by dsimp only; omega⟩

end View

end Idsm.Foundation
