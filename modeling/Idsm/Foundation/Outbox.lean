import Mathlib

/-! A queue whose items are taken out one at a time to be sent. -/

set_option autoImplicit false

namespace Idsm.Foundation

/-- `queued` holds all items that were ever put in and `sent` those that were sent, each in its
order; `inHand` is the item that is being sent. -/
structure Outbox (α : Type) where
  queued : List α
  waiting : List α
  inHand : Option α
  sent : List α
  deriving DecidableEq, Repr

namespace Outbox

variable {α : Type}

def empty : Outbox α := ⟨[], [], none, []⟩

def put (box : Outbox α) (item : α) : Outbox α :=
  { box with queued := box.queued ++ [item], waiting := box.waiting ++ [item] }

def take (box : Outbox α) : Outbox α :=
  { box with inHand := box.waiting.head?, waiting := box.waiting.tail }

/-- The item was sent. -/
def confirm (box : Outbox α) : Outbox α :=
  { box with sent := box.sent ++ box.inHand.toList, inHand := none }

/-- The item goes back to the front. -/
def putBack (box : Outbox α) : Outbox α :=
  { box with waiting := box.inHand.toList ++ box.waiting, inHand := none }

/-- The item is forgotten. -/
def drop (box : Outbox α) : Outbox α := { box with inHand := none }

/-- Every item was sent, is being sent or waits, in the order in which they were put in. -/
def Conserved (box : Outbox α) : Prop :=
  box.queued = box.sent ++ (box.inHand.toList ++ box.waiting)

instance [DecidableEq α] (box : Outbox α) : Decidable box.Conserved :=
  inferInstanceAs (Decidable (_ = _))

variable {box : Outbox α}

theorem conserved_empty : (empty : Outbox α).Conserved := rfl

theorem Conserved.put (conserved : box.Conserved) (item : α) : (box.put item).Conserved := by
  unfold Conserved at conserved ⊢
  change box.queued ++ [item] = box.sent ++ (box.inHand.toList ++ (box.waiting ++ [item]))
  rw [conserved, List.append_assoc, List.append_assoc]

theorem Conserved.take (conserved : box.Conserved) (free : box.inHand = none) :
    box.take.Conserved := by
  unfold Conserved at conserved ⊢
  change box.queued = box.sent ++ (box.waiting.head?.toList ++ box.waiting.tail)
  rw [conserved, free]
  cases box.waiting with
  | nil => rfl
  | cons item rest => rfl

theorem Conserved.confirm (conserved : box.Conserved) : box.confirm.Conserved := by
  unfold Conserved at conserved ⊢
  change box.queued = (box.sent ++ box.inHand.toList) ++ ([] ++ box.waiting)
  rw [conserved, List.nil_append, List.append_assoc]

theorem Conserved.putBack (conserved : box.Conserved) : box.putBack.Conserved := conserved

/-- An item that is forgotten is gone. -/
theorem Conserved.not_drop {item : α} (conserved : box.Conserved)
    (taken : box.inHand = some item) : ¬ box.drop.Conserved := by
  intro still
  unfold Conserved at conserved still
  change box.queued = box.sent ++ ([] ++ box.waiting) at still
  rw [conserved, taken] at still
  have lengths := congrArg List.length still
  simp at lengths

end Outbox

end Idsm.Foundation
