import Idsm.Foundation.Execution

/-! A thread that waits on a condition variable until its queue holds something or a flag is
gone, others that fill the queue under the lock, and one that clears the flag without the lock,
notifies and joins. -/

set_option autoImplicit false

namespace Idsm.Foundation

/-- What such loops differ in: whether the loop's head reads the flag, whether an empty queue
may be waited for with a timeout, whether an empty queue behind the wait ends the loop under a
set flag too, and whether the whole queue is taken at once. -/
structure WaitShape where
  readsFlag : Bool
  timed : Bool
  endsWhenEmpty : Bool
  takesAll : Bool

/-- The waiter holds the lock where its predicate was evaluated to false, until it blocks. -/
inductive WaitPosition where
  | head
  | locking
  | evaluated
  | blocked
  | woken
  | timed
  | elapsed
  | working
  | ended
  deriving DecidableEq, Repr

inductive StopPosition where
  | idle
  | stored
  | notified
  | joined
  deriving DecidableEq, Repr

/-- `notifications` are the calls of `notify_one` that are still to come. -/
structure WaitState (α : Type) where
  running : Bool
  queue : List α
  notifications : Nat
  waiter : WaitPosition
  stopper : StopPosition

/-- `deadline` says that there is a time to wait for, and `wake` is a timeout or a spurious
end of a wait. -/
inductive WaitEvent (α : Type) where
  | waiterNext (deadline : Bool)
  | wake
  | enqueue (item : α)
  | notifyOne
  | store
  | notifyAll
  | join

variable {α : Type}

def WaitPosition.notified : WaitPosition → WaitPosition
  | .blocked => .woken
  | .timed => .elapsed
  | position => position

namespace WaitState

def start (queue : List α) : WaitState α := ⟨true, queue, 0, .head, .idle⟩

/-- The waiter is blocked without a timeout, and nothing is left that would end its wait. -/
structure Stuck (state : WaitState α) : Prop where
  blocked : state.waiter = .blocked
  stopped : state.running = false
  empty : state.queue = []
  notified : state.stopper ≠ .idle ∧ state.stopper ≠ .stored
  silent : state.notifications = 0

/-- The stopper notifies between the waiter's evaluation and its blocking. -/
def misses (state : WaitState α) : WaitEvent α → Bool
  | .notifyAll => state.waiter == .evaluated && state.stopper == .stored
  | _ => false

end WaitState

namespace WaitShape

variable (shape : WaitShape) (state : WaitState α)

/-- Behind the wait, still under the lock: the loop ends or takes from the queue. -/
def check : WaitState α :=
  if state.queue = [] ∧ (shape.endsWhenEmpty ∨ state.running = false) then
    { state with waiter := .ended }
  else
    { state with
      queue := if shape.takesAll then [] else state.queue.tail
      waiter := .working }

/-- The predicate, under the lock. -/
def evaluate : WaitState α :=
  if state.queue = [] ∧ state.running = true then { state with waiter := .evaluated }
  else shape.check state

def waiterNext (deadline : Bool) : Option (WaitState α) :=
  match state.waiter with
  | .head =>
      some { state with
        waiter := if shape.readsFlag ∧ state.running = false then .ended else .locking }
  | .locking =>
      if shape.timed ∧ state.queue = [] ∧ deadline then some { state with waiter := .timed }
      else some (shape.evaluate state)
  | .evaluated => some { state with waiter := .blocked }
  | .woken => some (shape.evaluate state)
  | .elapsed => some (shape.check state)
  | .working => some { state with waiter := .head }
  | .blocked | .timed | .ended => none

def step : WaitEvent α → Option (WaitState α)
  | .waiterNext deadline => shape.waiterNext state deadline
  | .wake =>
      if state.waiter = .blocked ∨ state.waiter = .timed then
        some { state with waiter := state.waiter.notified }
      else none
  | .enqueue item =>
      if state.waiter = .evaluated then none
      else
        some { state with
          queue := state.queue ++ [item], notifications := state.notifications + 1 }
  | .notifyOne =>
      if state.notifications = 0 then none
      else
        some { state with
          notifications := state.notifications - 1, waiter := state.waiter.notified }
  | .store =>
      if state.stopper = .idle then some { state with running := false, stopper := .stored }
      else none
  | .notifyAll =>
      if state.stopper = .stored then
        some { state with stopper := .notified, waiter := state.waiter.notified }
      else none
  | .join =>
      if state.stopper = .notified ∧ state.waiter = .ended then
        some { state with stopper := .joined }
      else none

end WaitShape

/-- Between the false predicate and the end of the wait that follows it. -/
def WaitPosition.waits : WaitPosition → Bool
  | .evaluated | .blocked => true
  | _ => false

/-- The flag is cleared once, and the lock keeps the queue empty until the waiter blocks. -/
structure WaitState.Sound (state : WaitState α) : Prop where
  stored : state.running = true ↔ state.stopper = .idle
  empty : state.waiter = .evaluated → state.queue = []

/-- After the stopper's notification no wait begins. -/
def WaitState.Warned (state : WaitState α) : Prop :=
  state.stopper = .notified ∨ state.stopper = .joined → state.waiter.waits = false

section Steps

variable {shape : WaitShape} {state later : WaitState α} {event : WaitEvent α}

theorem WaitPosition.waits_notified {position : WaitPosition} (other : position ≠ .evaluated) :
    position.notified.waits = false := by
  cases position with
  | evaluated => exact absurd rfl other
  | _ => rfl

theorem WaitPosition.notified_evaluated {position : WaitPosition}
    (same : position.notified = .evaluated) : position = .evaluated := by
  cases position with
  | evaluated => rfl
  | _ => cases same

theorem WaitShape.check_cases (shape : WaitShape) (state : WaitState α) :
    ∃ queue waiter, (waiter = .ended ∨ waiter = .working) ∧
      shape.check state = { state with queue, waiter } := by
  unfold WaitShape.check
  split
  · exact ⟨state.queue, .ended, .inl rfl, rfl⟩
  · exact ⟨_, .working, .inr rfl, rfl⟩

theorem WaitShape.evaluate_cases (shape : WaitShape) (state : WaitState α) :
    (state.queue = [] ∧ state.running = true ∧
      shape.evaluate state = { state with waiter := .evaluated }) ∨
    ∃ queue waiter, (waiter = .ended ∨ waiter = .working) ∧
      shape.evaluate state = { state with queue, waiter } := by
  unfold WaitShape.evaluate
  split
  next waits => exact .inl ⟨waits.1, waits.2, rfl⟩
  next => exact .inr (shape.check_cases state)

/-- A step of the waiter: it begins a wait where the predicate is false, blocks where it holds
the lock, or is somewhere else. -/
theorem WaitShape.waiterNext_cases {deadline : Bool}
    (stepped : shape.waiterNext state deadline = some later) :
    (state.queue = [] ∧ state.running = true ∧ later = { state with waiter := .evaluated }) ∨
    (state.waiter = .evaluated ∧ later = { state with waiter := .blocked }) ∨
    ∃ queue waiter, waiter.waits = false ∧ later = { state with queue, waiter } := by
  have goes : ∀ {next : WaitState α}, (∃ queue waiter, (waiter = .ended ∨ waiter = .working) ∧
      next = { state with queue, waiter }) →
      ∃ queue waiter, waiter.waits = false ∧ next = { state with queue, waiter } := by
    rintro _ ⟨queue, waiter, rfl | rfl, rfl⟩
    · exact ⟨queue, .ended, rfl, rfl⟩
    · exact ⟨queue, .working, rfl, rfl⟩
  unfold WaitShape.waiterNext at stepped
  cases position : state.waiter with
  | head =>
      rw [position] at stepped
      obtain rfl := Option.some.inj stepped
      refine .inr (.inr ⟨state.queue, _, ?_, rfl⟩)
      split
      · rfl
      · rfl
  | locking =>
      rw [position] at stepped
      dsimp only at stepped
      split at stepped
      · obtain rfl := Option.some.inj stepped
        exact .inr (.inr ⟨state.queue, .timed, rfl, rfl⟩)
      · obtain rfl := Option.some.inj stepped
        exact (shape.evaluate_cases state).imp_right fun found => .inr (goes found)
  | evaluated =>
      rw [position] at stepped
      obtain rfl := Option.some.inj stepped
      exact .inr (.inl ⟨rfl, rfl⟩)
  | woken =>
      rw [position] at stepped
      obtain rfl := Option.some.inj stepped
      exact (shape.evaluate_cases state).imp_right fun found => .inr (goes found)
  | elapsed =>
      rw [position] at stepped
      obtain rfl := Option.some.inj stepped
      exact .inr (.inr (goes (shape.check_cases state)))
  | working =>
      rw [position] at stepped
      obtain rfl := Option.some.inj stepped
      exact .inr (.inr ⟨state.queue, .head, rfl, rfl⟩)
  | blocked =>
      rw [position] at stepped
      cases stepped
  | timed =>
      rw [position] at stepped
      cases stepped
  | ended =>
      rw [position] at stepped
      cases stepped

theorem WaitState.Sound.step (sound : state.Sound) (stepped : shape.step state event = some later) :
    later.Sound := by
  unfold WaitShape.step at stepped
  cases event with
  | waiterNext deadline =>
      obtain ⟨empty, _, rfl⟩ | ⟨_, rfl⟩ | ⟨queue, waiter, elsewhere, rfl⟩ :=
        WaitShape.waiterNext_cases stepped
      · exact { sound with empty := fun _ => empty }
      · exact { sound with empty := nofun }
      · have other : waiter ≠ .evaluated := by
          intro same
          rw [same] at elsewhere
          cases elsewhere
        exact { sound with empty := fun same => absurd same other }
  | wake =>
      dsimp only at stepped
      split at stepped
      · obtain rfl := Option.some.inj stepped
        exact { sound with
          empty := fun same => sound.empty (WaitPosition.notified_evaluated same) }
      · cases stepped
  | enqueue item =>
      dsimp only at stepped
      split at stepped
      · cases stepped
      next unlocked =>
        obtain rfl := Option.some.inj stepped
        exact { sound with empty := fun same => absurd same unlocked }
  | notifyOne =>
      dsimp only at stepped
      split at stepped
      · cases stepped
      · obtain rfl := Option.some.inj stepped
        exact { sound with
          empty := fun same => sound.empty (WaitPosition.notified_evaluated same) }
  | store =>
      dsimp only at stepped
      split at stepped
      · obtain rfl := Option.some.inj stepped
        exact { sound with stored := ⟨nofun, nofun⟩ }
      · cases stepped
  | notifyAll =>
      dsimp only at stepped
      split at stepped
      next stored =>
        obtain rfl := Option.some.inj stepped
        exact {
          stored := ⟨fun running => absurd ((sound.stored.1 running).symm.trans stored) nofun, nofun⟩
          empty := fun same => sound.empty (WaitPosition.notified_evaluated same) }
      · cases stepped
  | join =>
      dsimp only at stepped
      split at stepped
      next notified =>
        obtain rfl := Option.some.inj stepped
        exact { sound with
          stored :=
            ⟨fun running => absurd ((sound.stored.1 running).symm.trans notified.1) nofun, nofun⟩ }
      · cases stepped

/-- Without a notification between evaluation and blocking the stopper's notification ends the
last wait. -/
theorem WaitState.Warned.step (warned : state.Warned) (sound : state.Sound)
    (careful : state.misses event = false) (stepped : shape.step state event = some later) :
    later.Warned := by
  unfold WaitShape.step at stepped
  cases event with
  | waiterNext deadline =>
      obtain ⟨_, running, rfl⟩ | ⟨evaluated, rfl⟩ | ⟨queue, waiter, elsewhere, rfl⟩ :=
        WaitShape.waiterNext_cases stepped
      · intro notified
        have idle := sound.stored.1 running
        rcases notified with notified | joined
        · exact absurd (idle.symm.trans notified) nofun
        · exact absurd (idle.symm.trans joined) nofun
      · intro notified
        have settled := warned notified
        rw [evaluated] at settled
        cases settled
      · exact fun _ => elsewhere
  | wake =>
      dsimp only at stepped
      split at stepped
      next waits =>
        obtain rfl := Option.some.inj stepped
        intro _
        apply WaitPosition.waits_notified
        intro evaluated
        rw [evaluated] at waits
        rcases waits with waits | waits
        · cases waits
        · cases waits
      · cases stepped
  | enqueue item =>
      dsimp only at stepped
      split at stepped
      · cases stepped
      · obtain rfl := Option.some.inj stepped
        exact warned
  | notifyOne =>
      dsimp only at stepped
      split at stepped
      · cases stepped
      · obtain rfl := Option.some.inj stepped
        intro notified
        have settled := warned notified
        apply WaitPosition.waits_notified
        intro evaluated
        rw [evaluated] at settled
        cases settled
  | store =>
      dsimp only at stepped
      split at stepped
      · obtain rfl := Option.some.inj stepped
        intro notified
        rcases notified with notified | joined
        · cases notified
        · cases joined
      · cases stepped
  | notifyAll =>
      dsimp only at stepped
      split at stepped
      next stored =>
        obtain rfl := Option.some.inj stepped
        intro _
        apply WaitPosition.waits_notified
        intro evaluated
        have missed : state.misses .notifyAll = true := by
          rw [WaitState.misses, evaluated, stored]
          rfl
        exact absurd (careful.symm.trans missed) nofun
      · cases stepped
  | join =>
      dsimp only at stepped
      split at stepped
      next notified =>
        obtain rfl := Option.some.inj stepped
        exact fun _ => warned (.inl notified.1)
      · cases stepped

/-- A notification that comes too early leaves the waiter to block behind it. -/
theorem WaitState.Sound.stuck_of_misses (sound : state.Sound) (missed : state.misses event = true)
    (silent : state.notifications = 0) (stepped : shape.step state event = some later)
    (deadline : Bool) :
    ∃ stuck, shape.step later (.waiterNext deadline) = some stuck ∧ stuck.Stuck := by
  cases event with
  | notifyAll =>
      obtain ⟨evaluated, stored⟩ : state.waiter = .evaluated ∧ state.stopper = .stored := by
        simpa [WaitState.misses] using missed
      have stopped : state.running = false := by
        cases running : state.running with
        | false => rfl
        | true => exact absurd ((sound.stored.1 running).symm.trans stored) nofun
      rw [WaitShape.step, if_pos stored, evaluated] at stepped
      obtain rfl := Option.some.inj stepped
      exact ⟨_, rfl, rfl, stopped, sound.empty evaluated, ⟨nofun, nofun⟩, silent⟩
  | _ => cases missed

end Steps

section Runs

variable {shape : WaitShape} {queue : List α} {last : WaitState α}
  {transitions : List (Transition (WaitState α) (WaitEvent α))}

theorem WaitState.sound_start : (WaitState.start queue).Sound :=
  ⟨⟨fun _ => rfl, fun _ => rfl⟩, nofun⟩

theorem WaitState.warned_start : (WaitState.start queue).Warned := by
  intro notified
  rcases notified with notified | joined
  · cases notified
  · cases joined

theorem WaitShape.sound_before (run : Execution shape.step (.start queue) transitions last) :
    ∀ transition ∈ transitions, transition.before.Sound ∧
      shape.step transition.before transition.event = some transition.after :=
  run.forall_transitions (fun sound (_ : True) stepped => sound.step stepped)
    (fun sound _ stepped => ⟨sound, stepped⟩) WaitState.sound_start fun _ _ => trivial

theorem WaitShape.not_stuck (run : Execution shape.step (.start queue) transitions last)
    (careful : ∀ transition ∈ transitions, transition.before.misses transition.event = false) :
    ¬last.Stuck := by
  have kept : last.Sound ∧ last.Warned := by
    apply run.invariant_of_past (fun _ state => state.Sound ∧ state.Warned)
      (fun _ state event => state.misses event = false)
      (fun ⟨sound, warned⟩ careful stepped =>
        ⟨sound.step stepped, warned.step sound careful stepped⟩)
      ⟨WaitState.sound_start, WaitState.warned_start⟩
      fun past transition rest split => careful transition (by simp [split])
  intro stuck
  have notified : last.stopper = .notified ∨ last.stopper = .joined := by
    cases stopper : last.stopper with
    | idle => exact absurd stopper stuck.notified.1
    | stored => exact absurd stopper stuck.notified.2
    | notified => exact .inl rfl
    | joined => exact .inr rfl
  have settled := kept.2 notified
  rw [stuck.blocked] at settled
  cases settled

end Runs

end Idsm.Foundation
