import Mathlib

/-! Windows of a fixed length over members that come in time. The first member opens a
window, and one that comes at or after its end opens the next. -/

set_option autoImplicit false

namespace Idsm.Foundation

variable {α : Type} (time : α → Nat) (interval : Nat)

/-- The member joins the window, or opens one by itself. -/
def joinWindow (window : List α) (member : α) : List α :=
  match window with
  | [] => [member]
  | first :: rest =>
      if time member < time first + interval then first :: rest ++ [member] else [member]

/-- The window of the last member. -/
def currentWindow (members : List α) : List α := members.foldl (joinWindow time interval) []

theorem currentWindow_append (members : List α) (member : α) :
    currentWindow time interval (members ++ [member]) =
      joinWindow time interval (currentWindow time interval members) member := by
  rw [currentWindow, List.foldl_append, ← currentWindow]
  rfl

/-- All members of a window come before its end. -/
def Within (window : List α) : Prop :=
  ∀ first ∈ window.head?, ∀ member ∈ window, time member < time first + interval

variable {time interval}

theorem joinWindow_of_open {first : α} {rest : List α} {member : α}
    (inside : time member < time first + interval) :
    joinWindow time interval (first :: rest) member = first :: rest ++ [member] :=
  if_pos inside

theorem joinWindow_of_over {window : List α} {member : α}
    (beyond : ∀ first ∈ window.head?, time first + interval ≤ time member) :
    joinWindow time interval window member = [member] := by
  cases window with
  | nil => rfl
  | cons first rest => exact if_neg (Nat.not_lt.mpr (beyond first rfl))

theorem Within.append {first : α} {rest : List α} {member : α}
    (within : Within time interval (first :: rest))
    (inside : time member < time first + interval) :
    Within time interval (first :: rest ++ [member]) := by
  intro head there other place
  obtain rfl : first = head := Option.some.inj there
  rcases List.mem_append.mp place with before | now
  · exact within first rfl other before
  · exact List.mem_singleton.mp now ▸ inside

theorem within_singleton (member : α) (positive : 0 < interval) :
    Within time interval [member] := by
  intro head there other place
  obtain rfl : member = head := Option.some.inj there
  obtain rfl := List.mem_singleton.mp place
  omega

end Idsm.Foundation
