import Idsm.Foundation.Waiting
import Idsm.IdsM.Worker
import Idsm.IdsRm.DeliveryProperties

/-! The three loops that wait on a condition variable, the order of their evaluation, their
blocking and `DeInit`'s notification, and how the managers' steps run through them. -/

set_option autoImplicit false

namespace Idsm.IdsRm

open Idsm.Foundation

inductive WaitLoop where
  | idsmWorker
  | idsrmWorker
  | idsrmSink
  deriving DecidableEq, Repr

/-- Only the manager's worker has deadlines; only the sink loop reads no flag at its head, ends
at an empty queue and takes one event at a time. -/
def WaitLoop.shape : WaitLoop → WaitShape
  | .idsmWorker => ⟨true, true, false, true⟩
  | .idsrmWorker => ⟨true, false, false, true⟩
  | .idsrmSink => ⟨false, false, true, false⟩

section Views

variable (notifications : Nat) (stopper : StopPosition)

/-- The worker of the security event manager in the loop. -/
def idsmWait (manager : IdsM.Manager) : WaitState IdsM.OwnedSEv where
  running := manager.running
  queue := manager.incoming
  notifications
  waiter :=
    match manager.worker with
    | .wait => .head
    | .drain => .locking
    | .process | .expire => .working
  stopper

def WorkerPosition.waiter : WorkerPosition → WaitPosition
  | .head => .head
  | .waiting => .locking
  | .batch _ => .working
  | .posting _ _ _ draining => if draining then .ended else .working
  | .drain | .remaining _ | .finished => .ended

def workerWait (manager : Manager) : WaitState OwnedQSEv where
  running := manager.workerRunning
  queue := manager.eventQueue
  notifications
  waiter := manager.worker.waiter
  stopper

/-- A sink loop; one that is gone has ended. -/
def sinkWait (manager : Manager) (position : Option SinkPosition) : WaitState OwnedQSEv where
  running := manager.sinkRunning
  queue := manager.sinkQueue
  notifications
  waiter :=
    match position with
    | some .waiting => .locking
    | some (.holding _) => .working
    | none => .ended
  stopper

end Views

section Steps

variable {notifications : Nat} {stopper : StopPosition}

/-- The steps of the worker inside its loop are runs of the loop. -/
theorem workerNext_runs {manager later : Manager} {success : Bool}
    (inside : manager.worker.waiter ≠ .ended)
    (stepped : manager.workerNext success = some later) :
    ∃ transitions, Execution WaitLoop.idsrmWorker.shape.step
      (workerWait notifications stopper manager) transitions
      (workerWait notifications stopper later) := by
  unfold Manager.workerNext at stepped
  cases position : manager.worker with
  | head =>
      rw [position] at stepped
      obtain rfl := Option.some.inj stepped
      refine ⟨_, .startingWith (.waiterNext false) ?_ (.stop _)⟩
      cases running : manager.workerRunning with
      | true => simp [WaitShape.step, WaitShape.waiterNext, workerWait, position, running,
          WorkerPosition.waiter]
      | false => simp [WaitShape.step, WaitShape.waiterNext, workerWait, position, running,
          WorkerPosition.waiter, WaitLoop.shape]
  | waiting =>
      rw [position] at stepped
      dsimp only at stepped
      split at stepped
      next empty =>
        split at stepped
        next => cases stepped
        next stopped =>
          obtain rfl := Option.some.inj stepped
          refine ⟨_, .startingWith (.waiterNext false) ?_ (.stop _)⟩
          simp [WaitShape.step, WaitShape.waiterNext, WaitShape.evaluate, WaitShape.check,
            workerWait, position, stopped, empty, WorkerPosition.waiter]
      next some =>
        obtain rfl := Option.some.inj stepped
        refine ⟨_, .startingWith (.waiterNext false) ?_ (.stop _)⟩
        simp [WaitShape.step, WaitShape.waiterNext, WaitShape.evaluate, WaitShape.check,
          workerWait, position, some, WorkerPosition.waiter, WaitLoop.shape]
  | batch rest =>
      rw [position] at stepped
      have here : (workerWait notifications stopper manager).waiter = .working := by
        rw [workerWait, position]
        rfl
      cases rest with
      | nil =>
          obtain rfl := Option.some.inj stepped
          refine ⟨_, .startingWith (.waiterNext false) ?_ (.stop _)⟩
          rw [WaitShape.step, WaitShape.waiterNext, here]
          rfl
      | cons qsev rest =>
          suffices same : workerWait notifications stopper later =
              workerWait notifications stopper manager by
            rw [same]
            exact ⟨[], .stop _⟩
          dsimp only at stepped
          unfold workerWait
          rw [position]
          split at stepped
          · obtain rfl := Option.some.inj stepped
            cases manager.sinkRunning with
            | true => rfl
            | false => rfl
          · obtain rfl := Option.some.inj stepped
            rfl
  | posting qsev attempt rest draining =>
      rw [position] at stepped
      obtain rfl := Option.some.inj stepped
      have looping : draining = false := by
        cases draining with
        | false => rfl
        | true => exact absurd (congrArg WorkerPosition.waiter position) inside
      suffices same : workerWait notifications stopper
          (manager.post success qsev attempt rest draining) =
            workerWait notifications stopper manager by
        rw [same]
        exact ⟨[], .stop _⟩
      unfold Manager.post workerWait
      rw [position, looping]
      dsimp only
      split
      · rfl
      · split
        · rfl
        · rfl
  | drain => exact absurd (congrArg WorkerPosition.waiter position) inside
  | remaining rest => exact absurd (congrArg WorkerPosition.waiter position) inside
  | finished => exact absurd (congrArg WorkerPosition.waiter position) inside

/-- The steps of a sink loop are runs of the loop. -/
theorem sinkNext_runs {manager later : Manager} {index : Nat} {connects writes : Bool}
    {position : SinkPosition} (here : manager.sinkLoops[index]? = some position)
    (stepped : manager.sinkNext index connects writes = some later) :
    ∃ next transitions, Execution WaitLoop.idsrmSink.shape.step
      (sinkWait notifications stopper manager (some position)) transitions
      (sinkWait notifications stopper later next) ∧
      (later.sinkLoops = match next with
        | some next => manager.sinkLoops.set index next
        | none => manager.sinkLoops.eraseIdx index) := by
  unfold Manager.sinkNext at stepped
  rw [here] at stepped
  cases position with
  | waiting =>
      dsimp only at stepped
      split at stepped
      next qsev rest queue =>
        obtain rfl := Option.some.inj stepped
        refine ⟨some (.holding qsev), _, .startingWith (.waiterNext false) ?_ (.stop _), rfl⟩
        simp [WaitShape.step, WaitShape.waiterNext, WaitShape.evaluate, WaitShape.check, sinkWait,
          queue, WaitLoop.shape]
      next queue =>
        split at stepped
        next => cases stepped
        next stopped =>
          obtain rfl := Option.some.inj stepped
          refine ⟨none, _, .startingWith (.waiterNext false) ?_ (.stop _), rfl⟩
          simp [WaitShape.step, WaitShape.waiterNext, WaitShape.evaluate, WaitShape.check,
            sinkWait, queue, stopped, WaitLoop.shape]
  | holding qsev =>
      obtain rfl := Option.some.inj stepped
      have same : ∀ loops : List SinkPosition, sinkWait notifications stopper
          { manager.deliver connects writes with sinkLoops := loops } (some .waiting) =
            sinkWait notifications stopper manager (some .waiting) := by
        intro loops
        unfold Manager.deliver sinkWait
        split
        · split
          · rfl
          · rfl
        · rfl
      refine ⟨some .waiting, _, .startingWith (.waiterNext false) rfl
        (.startingWith (.waiterNext false) ?_ (.stop _)), rfl⟩
      rw [same]
      rfl

/-- While the flag is set, the steps of the manager's worker are runs of the loop: a look at an
empty queue is a wait that its deadline ends. -/
theorem idsmStep_runs {manager later : IdsM.Manager} {event : IdsM.ManagerEvent}
    (running : manager.running = true)
    (works : (∃ nowMs, event = .wait nowMs) ∨ event = .drain ∨
      (∃ clock, event = .process clock) ∨ ∃ nowMs, event = .expire nowMs)
    (stepped : IdsM.managerStep manager event = some later) :
    ∃ transitions, Execution WaitLoop.idsmWorker.shape.step
      (idsmWait notifications stopper manager) transitions
      (idsmWait notifications stopper later) := by
  obtain ⟨nowMs, rfl⟩ | rfl | ⟨clock, rfl⟩ | ⟨nowMs, rfl⟩ := works
  all_goals
    rw [IdsM.managerStep] at stepped
    split at stepped
  next here =>
    obtain rfl := Option.some.inj stepped
    refine ⟨_, .startingWith (.waiterNext false) ?_ (.stop _)⟩
    have same : idsmWait notifications stopper { (if manager.incoming = [] then
        (manager.expire nowMs).2 else manager) with worker := .drain } =
        { idsmWait notifications stopper manager with waiter := .locking } := by
      split
      · rfl
      · rfl
    rw [same]
    simp [WaitShape.step, WaitShape.waiterNext, idsmWait, here, running]
  next => cases stepped
  next here =>
    obtain rfl := Option.some.inj stepped
    cases queue : manager.incoming with
    | nil =>
        have waits : WaitLoop.idsmWorker.shape.step (idsmWait notifications stopper manager)
            (.waiterNext true) =
              some { idsmWait notifications stopper manager with waiter := .timed } := by
          simp [WaitShape.step, WaitShape.waiterNext, idsmWait, here, queue, WaitLoop.shape]
        have goes : WaitLoop.idsmWorker.shape.step
            { idsmWait notifications stopper manager with waiter := .elapsed }
            (.waiterNext false) = some (idsmWait notifications stopper manager.drain) := by
          simp [WaitShape.step, WaitShape.waiterNext, WaitShape.check, idsmWait, queue, running,
            WaitLoop.shape, IdsM.Manager.drain]
        exact ⟨_, .startingWith _ waits (.startingWith .wake rfl (.startingWith _ goes (.stop _)))⟩
    | cons sev rest =>
        refine ⟨_, .startingWith (.waiterNext false) ?_ (.stop _)⟩
        simp [WaitShape.step, WaitShape.waiterNext, WaitShape.evaluate, WaitShape.check, idsmWait,
          here, queue, WaitLoop.shape, IdsM.Manager.drain]
  next => cases stepped
  next here =>
    suffices same : idsmWait notifications stopper later =
        idsmWait notifications stopper manager by
      rw [same]
      exact ⟨[], .stop _⟩
    unfold idsmWait
    rw [here.2]
    split at stepped
    · obtain rfl := Option.some.inj stepped
      rfl
    · obtain rfl := Option.some.inj stepped
      unfold IdsM.Manager.processEvent
      split
      · simp [here.2]
      · simp [here.2, IdsM.Manager.setSev]
  next => cases stepped
  next here =>
    obtain rfl := Option.some.inj stepped
    refine ⟨_, .startingWith (.waiterNext false) ?_ (.stop _)⟩
    simp [WaitShape.step, WaitShape.waiterNext, idsmWait, here, IdsM.Manager.expire]
  next => cases stepped

end Steps

section Runs

variable {α : Type} {loop : WaitLoop} {queue : List α} {last : WaitState α}
  {transitions : List (Transition (WaitState α) (WaitEvent α))}

/-- For every run of each loop beside its stopper and the threads that fill its queue: when no
notification of the stopper comes between an evaluation and the blocking behind it, no state is
stuck, and each that does makes the waiter's next step a stuck one. -/
theorem shutdown_wakes (run : Execution loop.shape.step (.start queue) transitions last) :
    ((∀ transition ∈ transitions, transition.before.misses transition.event = false) →
      ¬last.Stuck) ∧
    ∀ transition ∈ transitions, transition.before.misses transition.event = true →
      transition.before.notifications = 0 → ∀ deadline, ∃ stuck,
        loop.shape.step transition.after (.waiterNext deadline) = some stuck ∧ stuck.Stuck := by
  refine ⟨WaitShape.not_stuck run, fun transition member missed silent deadline => ?_⟩
  obtain ⟨sound, stepped⟩ := WaitShape.sound_before run transition member
  exact sound.stuck_of_misses missed silent stepped deadline

/-- `DeInit` while the worker is blocked. -/
theorem shutdown_wakes_sample :
    ∃ transitions last, execute WaitLoop.idsrmWorker.shape.step (.start [ownedSample])
        [.waiterNext false, .waiterNext false, .waiterNext false, .waiterNext false,
          .waiterNext false, .waiterNext false, .store, .notifyAll, .waiterNext false, .join] =
      some (transitions, last) ∧
      ((∀ transition ∈ transitions, transition.before.misses transition.event = false) →
        ¬last.Stuck) ∧
      ∀ transition ∈ transitions, transition.before.misses transition.event = true →
        transition.before.notifications = 0 → ∀ deadline, ∃ stuck,
          WaitLoop.idsrmWorker.shape.step transition.after (.waiterNext deadline) = some stuck ∧
            stuck.Stuck := by
  have ran : execute WaitLoop.idsrmWorker.shape.step (.start [ownedSample])
      [.waiterNext false, .waiterNext false, .waiterNext false, .waiterNext false,
        .waiterNext false, .waiterNext false, .store, .notifyAll, .waiterNext false, .join] =
    some _ := rfl
  exact ⟨_, _, ran, shutdown_wakes (execution_of_execute ran)⟩

/-- The flag is cleared and the notification given while the waiter holds the lock. -/
def lostWakeup : List (WaitEvent α) :=
  [.waiterNext false, .waiterNext false, .store, .notifyAll, .waiterNext false]

theorem lostWakeup_stuck (loop : WaitLoop) :
    ∃ transitions, ∃ last : WaitState α,
      execute loop.shape.step (.start []) lostWakeup = some (transitions, last) ∧ last.Stuck := by
  cases loop with
  | idsmWorker => exact ⟨_, _, rfl, rfl, rfl, rfl, ⟨nofun, nofun⟩, rfl⟩
  | idsrmWorker => exact ⟨_, _, rfl, rfl, rfl, rfl, ⟨nofun, nofun⟩, rfl⟩
  | idsrmSink => exact ⟨_, _, rfl, rfl, rfl, rfl, ⟨nofun, nofun⟩, rfl⟩

theorem wakeup_is_lost :
    (∃ transitions, ∃ last : WaitState IdsM.OwnedSEv,
      execute WaitLoop.idsmWorker.shape.step (.start []) lostWakeup = some (transitions, last) ∧
        last.Stuck) ∧
    (∃ transitions, ∃ last : WaitState OwnedQSEv,
      execute WaitLoop.idsrmWorker.shape.step (.start []) lostWakeup = some (transitions, last) ∧
        last.Stuck) ∧
    ∃ transitions, ∃ last : WaitState OwnedQSEv,
      execute WaitLoop.idsrmSink.shape.step (.start []) lostWakeup = some (transitions, last) ∧
        last.Stuck :=
  ⟨lostWakeup_stuck .idsmWorker, lostWakeup_stuck .idsrmWorker, lostWakeup_stuck .idsrmSink⟩

end Runs

end Idsm.IdsRm
