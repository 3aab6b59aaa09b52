import Mathlib

/-! Machines that answer every event with a list, and machines made of parts. A part is fed what
the whole routes to it, and its answers are found again among those of the whole. -/

set_option autoImplicit false

namespace Idsm.Foundation

structure Reactor (σ ε ω : Type) where
  react : σ → ε → σ × List ω

namespace Reactor

variable {σ ε ω : Type} (whole : Reactor σ ε ω)

/-- The state behind a run. -/
def after (state : σ) : List ε → σ
  | [] => state
  | event :: events => after (whole.react state event).1 events

/-- All answers of a run in their order. -/
def answers (state : σ) : List ε → List ω
  | [] => []
  | event :: events => (whole.react state event).2 ++ answers (whole.react state event).1 events

variable {whole} {state : σ} {event : ε}

@[simp] theorem after_nil : whole.after state [] = state := rfl

@[simp] theorem answers_nil : whole.answers state [] = [] := rfl

theorem after_cons (events : List ε) :
    whole.after state (event :: events) = whole.after (whole.react state event).1 events := rfl

theorem answers_cons (events : List ε) : whole.answers state (event :: events) =
    (whole.react state event).2 ++ whole.answers (whole.react state event).1 events := rfl

theorem after_append (before later : List ε) :
    whole.after state (before ++ later) = whole.after (whole.after state before) later := by
  induction before generalizing state with
  | nil => rfl
  | cons event before ih => exact ih

theorem answers_append (before later : List ε) : whole.answers state (before ++ later) =
    whole.answers state before ++ whole.answers (whole.after state before) later := by
  induction before generalizing state with
  | nil => rfl
  | cons event before ih =>
      rw [List.cons_append, answers_cons, answers_cons, ih, List.append_assoc, after_cons]

theorem after_singleton : whole.after state [event] = (whole.react state event).1 := rfl

theorem answers_singleton : whole.answers state [event] = (whole.react state event).2 :=
  List.append_nil _

/-- What each step keeps, a run keeps. -/
theorem after_invariant {invariant : σ → Prop} {events : List ε}
    (keeps : ∀ {state event}, event ∈ events → invariant state →
      invariant (whole.react state event).1)
    (holds : invariant state) : invariant (whole.after state events) := by
  induction events generalizing state with
  | nil => exact holds
  | cons event events ih =>
      exact ih (fun member => keeps (List.mem_cons_of_mem event member))
        (keeps List.mem_cons_self holds)

/-- What each answer of a step has, each answer of a run has. -/
theorem answers_property {property : ω → Prop} {events : List ε}
    (has : ∀ {state event}, ∀ answer ∈ (whole.react state event).2, property answer) :
    ∀ answer ∈ whole.answers state events, property answer := by
  induction events generalizing state with
  | nil =>
      intro answer member
      cases member
  | cons event events ih =>
      rw [answers_cons]
      exact List.forall_mem_append.mpr ⟨has, ih⟩

/-- Machines whose states stay related answer alike. -/
theorem answers_eq_of_related {τ : Type} {other : Reactor τ ε ω} {related : σ → τ → Prop}
    {state : σ} {state' : τ} {events : List ε} (start : related state state')
    (step : ∀ event ∈ events, ∀ state state', related state state' →
      related (whole.react state event).1 (other.react state' event).1 ∧
        (whole.react state event).2 = (other.react state' event).2) :
    related (whole.after state events) (other.after state' events) ∧
      whole.answers state events = other.answers state' events := by
  induction events generalizing state state' with
  | nil => exact ⟨start, rfl⟩
  | cons event events ih =>
      obtain ⟨next, same⟩ := step event List.mem_cons_self state state' start
      obtain ⟨final, rest⟩ := ih next fun event member =>
        step event (List.mem_cons_of_mem _ member)
      exact ⟨final, by rw [answers_cons, answers_cons, same, rest]⟩

end Reactor

section Labels

variable {ω κ : Type} [DecidableEq κ] {label : ω → κ} {key named : κ} {answer : ω}
  {answers : List ω}

/-- The answers with one label. -/
def labelled (label : ω → κ) (key : κ) (answer : ω) : Option ω :=
  if label answer = key then some answer else none

theorem filterMap_labelled (names : ∀ answer ∈ answers, label answer = named) :
    answers.filterMap (labelled label key) = if named = key then answers else [] := by
  induction answers with
  | nil => split <;> rfl
  | cons answer answers ih =>
      have here := names answer List.mem_cons_self
      rw [List.filterMap_cons, ih fun other member => names other (List.mem_cons_of_mem _ member),
        labelled, here]
      by_cases same : named = key <;> simp [same]

theorem optional_labelled {answer : Option ω}
    (names : ∀ raised, answer = some raised → label raised = named) :
    answer.toList.filterMap (labelled label key) = if named = key then answer.toList else [] :=
  filterMap_labelled fun raised member => names raised (Option.mem_toList.mp member)

theorem mem_labelled : answer ∈ answers.filterMap (labelled label key) ↔
    answer ∈ answers ∧ label answer = key := by
  rw [List.mem_filterMap]
  constructor
  · rintro ⟨other, member, picked⟩
    rw [labelled] at picked
    split at picked
    next named =>
      cases picked
      exact ⟨member, named⟩
    next => cases picked
  · rintro ⟨member, named⟩
    exact ⟨answer, member, if_pos named⟩

end Labels

/-- A part of a machine: what is routed to it, its share of the state, and its share of the
answers. -/
structure Part {σ ε ω τ δ υ : Type} (whole : Reactor σ ε ω) (part : Reactor τ δ υ) where
  route : σ → ε → List δ
  view : σ → τ
  pick : ω → Option υ
  fed : ∀ state event, view (whole.react state event).1 =
    part.after (view state) (route state event)
  picked : ∀ state event, (whole.react state event).2.filterMap pick =
    part.answers (view state) (route state event)

namespace Part

variable {σ ε ω τ δ υ : Type} {whole : Reactor σ ε ω} {part : Reactor τ δ υ}
  (share : Part whole part)

/-- All that a run routes to the part. -/
def routed (state : σ) : List ε → List δ
  | [] => []
  | event :: events => share.route state event ++ routed (whole.react state event).1 events

theorem view_after (state : σ) (events : List ε) : share.view (whole.after state events) =
    part.after (share.view state) (share.routed state events) := by
  induction events generalizing state with
  | nil => rfl
  | cons event events ih =>
      rw [Reactor.after_cons, ih, share.fed, routed, Reactor.after_append]

/-- The part answers in the whole as it does alone. -/
theorem answers_pick (state : σ) (events : List ε) :
    (whole.answers state events).filterMap share.pick =
      part.answers (share.view state) (share.routed state events) := by
  induction events generalizing state with
  | nil => rfl
  | cons event events ih =>
      rw [Reactor.answers_cons, List.filterMap_append, ih, share.picked, share.fed, routed,
        Reactor.answers_append]

/-- The part's answer to one event of a run. -/
theorem react_pick (state : σ) (before : List ε) (event : ε) :
    (whole.react (whole.after state before) event).2.filterMap share.pick =
      part.answers (part.after (share.view state) (share.routed state before))
        (share.route (whole.after state before) event) := by
  rw [share.picked, share.view_after]

/-- A route that the state does not change. -/
theorem routed_of_stateless {route : ε → List δ}
    (stateless : ∀ state event, share.route state event = route event) (state : σ)
    (events : List ε) : share.routed state events = events.flatMap route := by
  induction events generalizing state with
  | nil => rfl
  | cons event events ih => rw [routed, ih, stateless, List.flatMap_cons]

/-- A part of a part. -/
def comp {μ ν ο : Type} {middle : Reactor μ ν ο} (outer : Part whole middle)
    (inner : Part middle part) : Part whole part where
  route := fun state event => inner.routed (outer.view state) (outer.route state event)
  view := inner.view ∘ outer.view
  pick := fun answer => (outer.pick answer).bind inner.pick
  fed := by
    intro state event
    rw [Function.comp_apply, outer.fed, inner.view_after]
    rfl
  picked := by
    intro state event
    rw [← List.filterMap_filterMap, outer.picked, inner.answers_pick]
    rfl

end Part

end Idsm.Foundation
