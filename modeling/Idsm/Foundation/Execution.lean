import Mathlib

/-! Runs of a machine one event at a time. An event that the state does not allow
has no step. -/

set_option autoImplicit false

namespace Idsm.Foundation

/-- What all members of a list have is decided member by member, never by going through the
members' type, which may be finite and large. -/
instance (priority := high) decidableMembers {α : Type} (property : α → Prop)
    [DecidablePred property] (members : List α) : Decidable (∀ member ∈ members, property member) :=
  List.decidableBAll property members

instance (priority := high) decidableMember {α : Type} (property : α → Prop)
    [DecidablePred property] (member : Option α) : Decidable (∀ value ∈ member, property value) :=
  Option.decidableForallMem member

variable {σ ε : Type}

structure Transition (σ ε : Type) where
  before : σ
  event : ε
  after : σ

/-- The transitions of a run in their order. -/
inductive Execution (step : σ → ε → Option σ) : σ → List (Transition σ ε) → σ → Prop where
  | stop (state : σ) : Execution step state [] state
  | next {start middle last : σ} {event : ε} {transitions : List (Transition σ ε)}
      (here : step start event = some middle) (later : Execution step middle transitions last) :
      Execution step start (⟨start, event, middle⟩ :: transitions) last

namespace Execution

variable {step : σ → ε → Option σ} {allowed : σ → ε → Prop} {start last : σ}
  {transitions : List (Transition σ ε)}

/-- A run by its first event. -/
theorem startingWith {middle : σ} (event : ε) (here : step start event = some middle)
    (later : Execution step middle transitions last) :
    Execution step start (⟨start, event, middle⟩ :: transitions) last := .next here later

/-- An invariant of the past and the state holds after a run whose events the past allows. -/
theorem invariant_of_past (invariant : List (Transition σ ε) → σ → Prop)
    (allowed : List (Transition σ ε) → σ → ε → Prop)
    (keeps : ∀ {past state event later}, invariant past state → allowed past state event →
      step state event = some later → invariant (past ++ [⟨state, event, later⟩]) later)
    (run : Execution step start transitions last) (holds : invariant [] start)
    (careful : ∀ past transition rest, transitions = past ++ transition :: rest →
      allowed past transition.before transition.event) : invariant transitions last := by
  suffices from_past : ∀ earlier, invariant earlier start →
      (∀ past transition rest, transitions = past ++ transition :: rest →
        allowed (earlier ++ past) transition.before transition.event) →
      invariant (earlier ++ transitions) last from from_past [] holds careful
  clear holds careful
  induction run with
  | stop state =>
      intro earlier holds _
      rwa [List.append_nil]
  | @next state middle ended event steps here later ih =>
      intro earlier holds careful
      have first := careful [] ⟨state, event, middle⟩ steps rfl
      rw [List.append_nil] at first
      have found := ih (earlier ++ [⟨state, event, middle⟩]) (keeps holds first here)
        (fun past transition rest split => by
          have next := careful (⟨state, event, middle⟩ :: past) transition rest (by rw [split]; rfl)
          rwa [List.append_assoc])
      rwa [List.append_assoc] at found

/-- What such an invariant gives for one step, it gives for every step of the run. -/
theorem forall_past {invariant : List (Transition σ ε) → σ → Prop}
    (allowed : List (Transition σ ε) → σ → ε → Prop)
    {good : List (Transition σ ε) → Transition σ ε → Prop}
    (keeps : ∀ {past state event later}, invariant past state → allowed past state event →
      step state event = some later → invariant (past ++ [⟨state, event, later⟩]) later)
    (gives : ∀ {past state event later}, invariant past state → allowed past state event →
      step state event = some later → good past ⟨state, event, later⟩)
    (run : Execution step start transitions last) (holds : invariant [] start)
    (careful : ∀ past transition rest, transitions = past ++ transition :: rest →
      allowed past transition.before transition.event) :
    ∀ past transition rest, transitions = past ++ transition :: rest → good past transition := by
  refine (run.invariant_of_past
    (fun past state => invariant past state ∧
      ∀ earlier transition rest, past = earlier ++ transition :: rest → good earlier transition)
    allowed ?_ ⟨holds, ?_⟩ careful).2
  · rintro past state event later ⟨holds, before⟩ allowed here
    refine ⟨keeps holds allowed here, fun earlier transition rest split => ?_⟩
    rcases List.eq_nil_or_concat rest with rfl | ⟨others, newest, rfl⟩
    · obtain ⟨rfl, same⟩ := List.append_inj' split rfl
      obtain rfl := List.singleton_inj.mp same
      exact gives holds allowed here
    · rw [List.concat_eq_append, ← List.cons_append, ← List.append_assoc] at split
      exact before earlier transition others (List.append_inj' split rfl).1
  · intro earlier transition rest split
    exact absurd split (by simp)

/-- The same for events that their state alone allows. -/
theorem forall_history {invariant : List (Transition σ ε) → σ → Prop}
    {good : List (Transition σ ε) → Transition σ ε → Prop}
    (keeps : ∀ {past state event later}, invariant past state → allowed state event →
      step state event = some later → invariant (past ++ [⟨state, event, later⟩]) later)
    (gives : ∀ {past state event later}, invariant past state → allowed state event →
      step state event = some later → good past ⟨state, event, later⟩)
    (run : Execution step start transitions last) (holds : invariant [] start)
    (careful : ∀ transition ∈ transitions, allowed transition.before transition.event) :
    ∀ past transition rest, transitions = past ++ transition :: rest → good past transition :=
  run.forall_past (fun _ => allowed) keeps gives holds fun past transition rest split =>
    careful transition (by simp [split])

/-- A property of every element and what comes before it, by the first element. -/
theorem forall_splits_cons {α : Type} {property : List α → α → Prop} {head : α} {tail : List α}
    (first : property [] head)
    (others : ∀ past element rest, tail = past ++ element :: rest →
      property (head :: past) element) :
    ∀ past element rest, head :: tail = past ++ element :: rest → property past element := by
  intro past element rest split
  cases past with
  | nil =>
      obtain ⟨rfl, _⟩ := List.cons.inj split
      exact first
  | cons start past =>
      obtain ⟨rfl, behind⟩ := List.cons.inj split
      exact others past element rest behind

theorem forall_splits_nil {α : Type} {property : List α → α → Prop} :
    ∀ past element rest, [] = past ++ element :: rest → property past element := by
  intro past element rest split
  exact absurd split (by simp)

/-- The same for an invariant of the state alone. -/
theorem forall_transitions {invariant : σ → Prop} {good : Transition σ ε → Prop}
    (keeps : ∀ {state event later}, invariant state → allowed state event →
      step state event = some later → invariant later)
    (gives : ∀ {state event later}, invariant state → allowed state event →
      step state event = some later → good ⟨state, event, later⟩)
    (run : Execution step start transitions last) (holds : invariant start)
    (careful : ∀ transition ∈ transitions, allowed transition.before transition.event) :
    ∀ transition ∈ transitions, good transition := by
  intro transition member
  obtain ⟨past, rest, split⟩ := List.append_of_mem member
  have found : ∀ past transition rest, transitions = past ++ transition :: rest → good transition :=
    run.forall_history keeps gives holds careful
  exact found past transition rest split

end Execution

/-- The run of a list of events, when each is allowed where it comes. -/
def execute (step : σ → ε → Option σ) (state : σ) :
    List ε → Option (List (Transition σ ε) × σ)
  | [] => some ([], state)
  | event :: events => do
      let later ← step state event
      let (transitions, last) ← execute step later events
      return (⟨state, event, later⟩ :: transitions, last)

theorem execution_of_execute {step : σ → ε → Option σ} {start last : σ} {events : List ε}
    {transitions : List (Transition σ ε)}
    (ran : execute step start events = some (transitions, last)) :
    Execution step start transitions last := by
  induction events generalizing start transitions with
  | nil =>
      cases ran
      exact .stop _
  | cons event events ih =>
      rw [execute, Option.bind_eq_bind, Option.bind_eq_some_iff] at ran
      obtain ⟨later, here, ran⟩ := ran
      rw [Option.bind_eq_bind, Option.bind_eq_some_iff] at ran
      obtain ⟨⟨others, ended⟩, rest, ran⟩ := ran
      cases ran
      exact .next here (ih rest)

end Idsm.Foundation
