import Mathlib

/-! Threads as trees of atomic actions, and what a thread keeps when others act between its
own actions. -/

set_option autoImplicit false

namespace Idsm.Foundation

/-- The next action and how the thread goes on with each answer. -/
inductive Thread (ι : Type) (ρ : ι → Type) (α : Type) where
  | done (value : α)
  | act (action : ι) (next : ρ action → Thread ι ρ α)

namespace Thread

variable {ι σ α β : Type} {ρ : ι → Type}

def bind (thread : Thread ι ρ α) (next : α → Thread ι ρ β) : Thread ι ρ β :=
  match thread with
  | .done value => next value
  | .act action later => .act action fun answer => (later answer).bind next

instance : Monad (Thread ι ρ) where
  pure := .done
  bind := bind

def perform (action : ι) : Thread ι ρ (ρ action) := .act action .done

theorem pure_bind (value : α) (next : α → Thread ι ρ β) :
    (pure value >>= next : Thread ι ρ β) = next value := rfl

/-- Some answers lead the thread to this value. -/
def MayEnd : Thread ι ρ α → α → Prop
  | .done value, result => value = result
  | .act _ next, result => ∃ answer, (next answer).MayEnd result

@[simp] theorem mayEnd_pure {value result : α} :
    (pure value : Thread ι ρ α).MayEnd result ↔ value = result := Iff.rfl

@[simp] theorem mayEnd_bind {thread : Thread ι ρ α} {next : α → Thread ι ρ β} {result : β} :
    (thread >>= next).MayEnd result ↔
      ∃ value, thread.MayEnd value ∧ (next value).MayEnd result := by
  induction thread with
  | done value => exact ⟨fun ends => ⟨value, rfl, ends⟩, fun ⟨_, same, ends⟩ => same ▸ ends⟩
  | act action later ih =>
      constructor
      · rintro ⟨answer, ends⟩
        obtain ⟨value, reached, last⟩ := (ih answer).mp ends
        exact ⟨value, ⟨answer, reached⟩, last⟩
      · rintro ⟨value, ⟨answer, reached⟩, last⟩
        exact ⟨answer, (ih answer).mpr ⟨value, reached, last⟩⟩

/-- Alone on the store, with a choice of the environment for each action; the thread is cut
when the choices end. -/
def runAlone {χ : Type} (performs : σ → (action : ι) → χ → ρ action × σ) :
    Thread ι ρ α → List χ → σ → Option (α × List χ) × σ
  | .done value, choices, store => (some (value, choices), store)
  | .act _ _, [], store => (none, store)
  | .act action next, choice :: choices, store =>
      (next (performs store action choice).1).runAlone performs choices
        (performs store action choice).2

/-- Who acts how: what an action may do, when it may happen, what every state satisfies, what
others may do in between and what the thread itself does. -/
structure Setting (σ ι : Type) (ρ : ι → Type) where
  performs : σ → (action : ι) → ρ action → σ → Prop
  allowed : σ → ι → Prop
  invariant : σ → Prop
  rely : σ → σ → Prop
  guarantee : σ → σ → Prop
  refl : ∀ store, rely store store
  trans : ∀ {first second third}, rely first second → rely second third → rely first third

/-- What others do between two actions does not undo it. -/
def Setting.Stable (setting : Setting σ ι ρ) (property : σ → Prop) : Prop :=
  ∀ store now, setting.rely store now → setting.invariant now → property store → property now

/-- From this store on the thread keeps the invariant, does only what it guarantees and ends
in the postcondition. -/
def Safe (setting : Setting σ ι ρ) (post : α → σ → Prop) : Thread ι ρ α → σ → Prop
  | .done value, store => ∀ now, setting.rely store now → setting.invariant now → post value now
  | .act action next, store => ∀ now, setting.rely store now → setting.invariant now →
      setting.allowed now action → ∀ answer later, setting.performs now action answer later →
        setting.invariant later ∧ setting.guarantee now later ∧
          (next answer).Safe setting post later

namespace Safe

variable {setting : Setting σ ι ρ} {post : α → σ → Prop} {thread : Thread ι ρ α}
  {store now later : σ}

/-- What others do leaves the thread safe. -/
theorem stable (safe : thread.Safe setting post store) (between : setting.rely store now) :
    thread.Safe setting post now := by
  cases thread with
  | done value => exact fun last onward => safe last (setting.trans between onward)
  | act action next => exact fun last onward => safe last (setting.trans between onward)

theorem step {action : ι} {next : ρ action → Thread ι ρ α} {answer : ρ action}
    (safe : (Thread.act action next).Safe setting post store) (holds : setting.invariant store)
    (allowed : setting.allowed store action)
    (performed : setting.performs store action answer later) :
    setting.invariant later ∧ setting.guarantee store later ∧
      (next answer).Safe setting post later :=
  safe store (setting.refl store) holds allowed answer later performed

theorem pure {value : α} (stable : setting.Stable (post value)) (ends : post value store) :
    (Pure.pure value : Thread ι ρ α).Safe setting post store :=
  fun now between holds => stable store now between holds ends

/-- One action from a property that others respect to another one. -/
theorem perform {action : ι} {before : σ → Prop} {post : ρ action → σ → Prop}
    (stable : setting.Stable before) (stays : ∀ answer, setting.Stable (post answer))
    (given : before store)
    (acts : ∀ {now}, setting.invariant now → before now → setting.allowed now action →
      ∀ {answer later}, setting.performs now action answer later →
        (setting.invariant later ∧ setting.guarantee now later) ∧ post answer later) :
    (Thread.perform action).Safe setting post store := by
  intro now between holds allowed answer later performed
  obtain ⟨⟨kept, acted⟩, reached⟩ := acts holds (stable store now between holds given) allowed performed
  exact ⟨kept, acted, fun last onward held => stays answer later last onward held reached⟩

theorem bind {next : α → Thread ι ρ β} {last : β → σ → Prop} (middle : α → σ → Prop)
    (first : thread.Safe setting middle store) (holds : setting.invariant store)
    (second : ∀ value now, setting.invariant now → middle value now →
      (next value).Safe setting last now) :
    (thread >>= next).Safe setting last store := by
  induction thread generalizing store with
  | done value => exact second value store holds (first store (setting.refl store) holds)
  | act action later ih =>
      intro now between held allowed answer reached performed
      obtain ⟨kept, acted, rest⟩ := first now between held allowed answer reached performed
      exact ⟨kept, acted, ih answer rest kept⟩

theorem weaken {weaker : α → σ → Prop} (safe : thread.Safe setting post store)
    (holds : setting.invariant store)
    (implies : ∀ value now, setting.invariant now → post value now → weaker value now) :
    thread.Safe setting weaker store := by
  induction thread generalizing store with
  | done value => exact fun now between held => implies value now held (safe now between held)
  | act action later ih =>
      intro now between held allowed answer reached performed
      obtain ⟨kept, acted, rest⟩ := safe now between held allowed answer reached performed
      exact ⟨kept, acted, ih answer rest kept⟩

end Safe

section Alone

variable {χ : Type} {performs : σ → (action : ι) → χ → ρ action × σ} {before cut : σ → Prop}
  {post : α → σ → Prop}

/-- How a thread ends alone, and what it leaves when it is cut. -/
def Alone (performs : σ → (action : ι) → χ → ρ action × σ) (before : σ → Prop)
    (thread : Thread ι ρ α) (post : α → σ → Prop) (cut : σ → Prop) : Prop :=
  ∀ choices store, before store → match thread.runAlone performs choices store with
    | (some (value, _), later) => post value later
    | (none, later) => cut later

theorem runAlone_bind {thread : Thread ι ρ α} {next : α → Thread ι ρ β} {choices : List χ}
    {store : σ} : (thread >>= next).runAlone performs choices store =
      match thread.runAlone performs choices store with
      | (some (value, rest), later) => (next value).runAlone performs rest later
      | (none, later) => (none, later) := by
  induction thread generalizing choices store with
  | done value => rfl
  | act action later ih =>
      cases choices with
      | nil => rfl
      | cons choice choices => exact ih _

namespace Alone

theorem pure {value : α} (ends : ∀ store, before store → post value store) :
    Alone performs before (Pure.pure value : Thread ι ρ α) post cut :=
  fun _ store given => ends store given

theorem perform {action : ι} {post : ρ action → σ → Prop}
    (stops : ∀ store, before store → cut store)
    (acts : ∀ store choice, before store →
      post (performs store action choice).1 (performs store action choice).2) :
    Alone performs before (Thread.perform action) post cut := by
  intro choices store given
  cases choices with
  | nil => exact stops store given
  | cons choice choices => exact acts store choice given

theorem bind {thread : Thread ι ρ α} {next : α → Thread ι ρ β} {last : β → σ → Prop}
    (middle : α → σ → Prop) (first : Alone performs before thread middle cut)
    (second : ∀ value, Alone performs (middle value) (next value) last cut) :
    Alone performs before (thread >>= next) last cut := by
  intro choices store given
  have reached := first choices store given
  rw [runAlone_bind]
  cases ended : thread.runAlone performs choices store with
  | mk result later =>
      rw [ended] at reached
      cases result with
      | none => exact reached
      | some result => exact second result.1 result.2 later reached

end Alone

end Alone

section Fixed

variable {performs : σ → (action : ι) → ρ action × σ}

/-- Alone on a store that answers each action in one way. -/
def runIn (performs : σ → (action : ι) → ρ action × σ) : Thread ι ρ α → σ → α × σ
  | .done value, store => (value, store)
  | .act action next, store =>
      (next (performs store action).1).runIn performs (performs store action).2

@[simp] theorem runIn_pure (value : α) (store : σ) :
    (Pure.pure value : Thread ι ρ α).runIn performs store = (value, store) := rfl

@[simp] theorem runIn_perform (action : ι) (store : σ) :
    (Thread.perform action : Thread ι ρ (ρ action)).runIn performs store =
      performs store action := rfl

theorem runIn_bind (thread : Thread ι ρ α) (next : α → Thread ι ρ β) (store : σ) :
    (thread >>= next).runIn performs store =
      (next (thread.runIn performs store).1).runIn performs (thread.runIn performs store).2 := by
  induction thread generalizing store with
  | done value => rfl
  | act action later ih => exact ih _ _

/-- What every action keeps between the stores, a thread keeps. -/
theorem runIn_relates {relates : σ → σ → Prop} (refl : ∀ store, relates store store)
    (trans : ∀ {first second third}, relates first second → relates second third →
      relates first third)
    (acts : ∀ store action, relates store (performs store action).2) (thread : Thread ι ρ α)
    (store : σ) : relates store (thread.runIn performs store).2 := by
  induction thread generalizing store with
  | done value => exact refl store
  | act action later ih => exact trans (acts store action) (ih _ _)

end Fixed

end Thread

end Idsm.Foundation
