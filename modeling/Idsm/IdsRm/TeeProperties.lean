import Idsm.IdsRm.DeliveryProperties

/-! One call of `OnQsev` beside the worker and the sink loops: when its event reaches the
sink's queue. -/

set_option autoImplicit false

namespace Idsm.IdsRm

open Idsm.Foundation

/-- The steps that come beside a call. `OnQsev` is called under a lock, one call at a time, and
the callback is taken away before a `DeInit` goes on. -/
def ManagerEvent.beside (index : Nat) : ManagerEvent → Bool
  | .callNext other => other == index
  | .workerNext _ | .sinkNext _ _ _ | .setEnabled _ | .setSocUrl _ | .resetStats => true
  | _ => false

/-- A call finds the HTTP queue full. -/
def Manager.refuses (manager : Manager) : ManagerEvent → Bool
  | .callNext index =>
      manager.calls[index]?.any (·.position == .entered) &&
        decide (queueDepth ≤ manager.eventQueue.length)
  | _ => false

/-- A section of a call puts the event into the sink's queue. -/
def appendsTo (qsev : OwnedQSEv) (transition : Transition Manager ManagerEvent) : Bool :=
  match transition.event with
  | .callNext _ => transition.after.sinkQueue == transition.before.sinkQueue ++ [qsev]
  | _ => false

/-- Where a call is, with what happened to its event: whether it was appended, and whether it
was refused. -/
inductive Progress (calls : List Call) (qsev : OwnedQSEv) : Bool → Bool → Manager → Prop where
  | underway {manager : Manager} (position : CallPosition) (early : position ≠ .counting)
      (here : manager.calls = calls ++ [⟨qsev, position⟩]) (running : manager.sinkRunning = true)
      (room : manager.sinkQueue.length < sinkDepth) : Progress calls qsev false false manager
  | counting {manager : Manager} (here : manager.calls = calls ++ [⟨qsev, .counting⟩]) :
      Progress calls qsev true false manager
  | sent {manager : Manager} (here : manager.calls = calls) : Progress calls qsev true false manager
  | lost {manager : Manager} (here : manager.calls = calls) : Progress calls qsev false true manager

section Steps

variable {manager later : Manager} {event : ManagerEvent} {calls : List Call} {qsev : OwnedQSEv}
  {appended refused : Bool}

theorem Progress.withoutTee {index : Nat} (progress : Progress calls qsev appended refused later)
    (same : later.sinkQueue = manager.sinkQueue) :
    Progress calls qsev (appended || appendsTo qsev ⟨manager, .callNext index, later⟩) refused
      later := by
  have silent : appendsTo qsev ⟨manager, .callNext index, later⟩ = false := by
    rw [appendsTo, same]
    simp
  rw [silent, Bool.or_false]
  exact progress

/-- The steps of the threads leave the calls alone and only take from the sink's queue. -/
theorem Progress.kept (progress : Progress calls qsev appended refused manager)
    (same : later.calls = manager.calls) (running : later.sinkRunning = manager.sinkRunning)
    (fewer : later.sinkQueue.length ≤ manager.sinkQueue.length) :
    Progress calls qsev appended refused later := by
  cases progress with
  | underway position early here set room =>
      exact .underway position early (same.trans here) (running.trans set)
        (Nat.lt_of_le_of_lt fewer room)
  | counting here => exact .counting (same.trans here)
  | sent here => exact .sent (same.trans here)
  | lost here => exact .lost (same.trans here)

theorem workerNext_keeps {success : Bool} (stepped : manager.workerNext success = some later) :
    later.calls = manager.calls ∧ later.sinkRunning = manager.sinkRunning ∧
      later.sinkQueue = manager.sinkQueue := by
  unfold Manager.workerNext at stepped
  cases position : manager.worker with
  | head =>
      rw [position] at stepped
      obtain rfl := Option.some.inj stepped
      exact ⟨rfl, rfl, rfl⟩
  | waiting =>
      rw [position] at stepped
      dsimp only at stepped
      split at stepped
      · split at stepped
        · cases stepped
        · obtain rfl := Option.some.inj stepped
          exact ⟨rfl, rfl, rfl⟩
      · obtain rfl := Option.some.inj stepped
        exact ⟨rfl, rfl, rfl⟩
  | batch rest =>
      rw [position] at stepped
      cases rest with
      | nil =>
          obtain rfl := Option.some.inj stepped
          exact ⟨rfl, rfl, rfl⟩
      | cons qsev rest =>
          dsimp only at stepped
          split at stepped
          · obtain rfl := Option.some.inj stepped
            cases running : manager.sinkRunning with
            | true => exact ⟨rfl, running, rfl⟩
            | false => exact ⟨rfl, running, rfl⟩
          · obtain rfl := Option.some.inj stepped
            exact ⟨rfl, rfl, rfl⟩
  | posting qsev attempt rest draining =>
      rw [position] at stepped
      obtain rfl := Option.some.inj stepped
      unfold Manager.post
      dsimp only
      split
      · exact ⟨rfl, rfl, rfl⟩
      · split
        · exact ⟨rfl, rfl, rfl⟩
        · exact ⟨rfl, rfl, rfl⟩
  | drain =>
      rw [position] at stepped
      obtain rfl := Option.some.inj stepped
      exact ⟨rfl, rfl, rfl⟩
  | remaining rest =>
      rw [position] at stepped
      cases rest with
      | nil =>
          obtain rfl := Option.some.inj stepped
          exact ⟨rfl, rfl, rfl⟩
      | cons qsev rest =>
          obtain rfl := Option.some.inj stepped
          exact ⟨rfl, rfl, rfl⟩
  | finished =>
      rw [position] at stepped
      cases stepped

theorem sinkNext_keeps {index : Nat} {connects writes : Bool}
    (stepped : manager.sinkNext index connects writes = some later) :
    later.calls = manager.calls ∧ later.sinkRunning = manager.sinkRunning ∧
      later.sinkQueue.length ≤ manager.sinkQueue.length := by
  unfold Manager.sinkNext at stepped
  split at stepped
  next => cases stepped
  next =>
    split at stepped
    next qsev rest queue =>
      obtain rfl := Option.some.inj stepped
      refine ⟨rfl, rfl, ?_⟩
      rw [queue]
      exact Nat.le_succ rest.length
    next =>
      split at stepped
      next => cases stepped
      next =>
        obtain rfl := Option.some.inj stepped
        exact ⟨rfl, rfl, Nat.le_refl _⟩
  next =>
    obtain rfl := Option.some.inj stepped
    unfold Manager.deliver
    split
    · split
      · exact ⟨rfl, rfl, Nat.le_refl _⟩
      · exact ⟨rfl, rfl, Nat.le_refl _⟩
    · exact ⟨rfl, rfl, Nat.le_refl _⟩

theorem endCall_last {call : Call} (here : manager.calls = calls ++ [call]) :
    manager.calls.eraseIdx calls.length = calls := by
  rw [here, List.eraseIdx_append_of_length_le (Nat.le_refl _), Nat.sub_self]
  exact List.append_nil calls

theorem Progress.callNext (progress : Progress calls qsev appended refused manager)
    (stepped : manager.callNext calls.length = some later) :
    Progress calls qsev
      (appended || appendsTo qsev ⟨manager, .callNext calls.length, later⟩)
      (refused || manager.refuses (.callNext calls.length)) later := by
  unfold Manager.callNext at stepped
  cases progress with
  | underway position early here running room =>
      have found : manager.calls[calls.length]? = some ⟨qsev, position⟩ := by
        rw [here, List.getElem?_concat_length]
      have set : ∀ next : Call, manager.calls.set calls.length next = calls ++ [next] := by
        intro next
        rw [here, List.set_append_right _ _ (Nat.le_refl _), Nat.sub_self]
        rfl
      have ended : manager.calls.eraseIdx calls.length = calls := endCall_last here
      rw [found] at stepped
      cases position with
      | entered =>
          obtain rfl := Option.some.inj stepped
          unfold Manager.enqueue
          split
          next full =>
            have refuses : manager.refuses (.callNext calls.length) = true := by
              simp [Manager.refuses, found, full]
            rw [refuses]
            exact (Progress.lost ended).withoutTee rfl
          next free =>
            have refuses : manager.refuses (.callNext calls.length) = false := by
              simp [Manager.refuses, Nat.lt_of_not_le free]
            rw [refuses]
            apply Progress.withoutTee
            · exact .underway .enqueued nofun (set _) running room
            · rfl
      | enqueued =>
          obtain rfl := Option.some.inj stepped
          have refuses : manager.refuses (.callNext calls.length) = false := by
            simp [Manager.refuses, found]
          rw [refuses, Manager.readSink, if_pos running]
          apply Progress.withoutTee
          · exact .underway .teeing nofun (set _) running room
          · rfl
      | teeing =>
          obtain rfl := Option.some.inj stepped
          have refuses : manager.refuses (.callNext calls.length) = false := by
            simp [Manager.refuses, found]
          rw [refuses, Manager.tee, if_pos room, appendsTo]
          simp only [beq_self_eq_true]
          exact .counting (set _)
      | counting => exact absurd rfl early
  | counting here =>
      have found : manager.calls[calls.length]? = some ⟨qsev, .counting⟩ := by
        rw [here, List.getElem?_concat_length]
      have refuses : manager.refuses (.callNext calls.length) = false := by
        simp [Manager.refuses, found]
      rw [found] at stepped
      obtain rfl := Option.some.inj stepped
      rw [refuses]
      exact .sent (endCall_last here)
  | sent here =>
      rw [here, List.getElem?_eq_none (Nat.le_refl _)] at stepped
      cases stepped
  | lost here =>
      rw [here, List.getElem?_eq_none (Nat.le_refl _)] at stepped
      cases stepped

theorem Progress.step (progress : Progress calls qsev appended refused manager)
    (beside : event.beside calls.length = true) (stepped : managerStep manager event = some later) :
    Progress calls qsev (appended || appendsTo qsev ⟨manager, event, later⟩)
      (refused || manager.refuses event) later := by
  have silent : appendsTo qsev ⟨manager, event, later⟩ = false → manager.refuses event = false →
      Progress calls qsev appended refused later →
      Progress calls qsev (appended || appendsTo qsev ⟨manager, event, later⟩)
        (refused || manager.refuses event) later := by
    intro append refuse progress
    rw [append, refuse, Bool.or_false, Bool.or_false]
    exact progress
  cases event with
  | callNext index =>
      obtain rfl : index = calls.length := by simpa [ManagerEvent.beside] using beside
      exact progress.callNext stepped
  | workerNext success =>
      obtain ⟨same, running, queue⟩ := workerNext_keeps stepped
      exact silent rfl rfl (progress.kept same running (Nat.le_of_eq (congrArg List.length queue)))
  | sinkNext index connects writes =>
      obtain ⟨same, running, fewer⟩ := sinkNext_keeps stepped
      exact silent rfl rfl (progress.kept same running fewer)
  | setEnabled enabled =>
      obtain rfl := Option.some.inj stepped
      apply silent rfl rfl
      split
      · exact progress.kept rfl rfl (Nat.le_refl _)
      · exact progress
  | setSocUrl url =>
      obtain rfl := Option.some.inj stepped
      apply silent rfl rfl
      split
      · exact progress.kept rfl rfl (Nat.le_refl _)
      · exact progress
  | resetStats =>
      obtain rfl := Option.some.inj stepped
      exact silent rfl rfl (progress.kept rfl rfl (Nat.le_refl _))
  | init config curl => cases beside
  | deInit => cases beside
  | deInitNext => cases beside
  | setLocalSink path => cases beside
  | enter qsev => cases beside

end Steps

section Runs

variable {manager last : Manager} {qsev : OwnedQSEv}
  {transitions : List (Transition Manager ManagerEvent)}

/-- A call made while the module is enabled, the sink runs and its queue has room: its event is
appended to the sink's queue exactly when the HTTP queue is not full where the call takes its
lock. -/
theorem call_appends_iff (enabled : manager.enabled = true) (running : manager.sinkRunning = true)
    (room : manager.sinkQueue.length < sinkDepth)
    (run : Execution managerStep (manager.enter qsev) transitions last)
    (beside : ∀ transition ∈ transitions, transition.event.beside manager.calls.length = true)
    (ended : last.calls = manager.calls) :
    (∃ transition ∈ transitions, appendsTo qsev transition = true) ↔
      ∀ transition ∈ transitions, transition.before.refuses transition.event = false := by
  have entered : Progress manager.calls qsev false false (manager.enter qsev) := by
    rw [Manager.enter, if_pos enabled]
    exact .underway .entered nofun rfl running room
  have progress : Progress manager.calls qsev (transitions.any (appendsTo qsev))
      (transitions.any fun transition => transition.before.refuses transition.event) last := by
    apply run.invariant_of_past
      (fun past state => Progress manager.calls qsev (past.any (appendsTo qsev))
        (past.any fun transition => transition.before.refuses transition.event) state)
      (fun _ _ event => event.beside manager.calls.length = true) _ entered
      fun past transition rest split => beside transition (by simp [split])
    intro past state event later progress beside stepped
    rw [List.any_append, List.any_append, List.any_cons, List.any_cons, List.any_nil,
      Bool.or_false, List.any_nil, Bool.or_false]
    exact progress.step beside stepped
  generalize appends : transitions.any (appendsTo qsev) = appended at progress
  generalize refuses : (transitions.any fun transition =>
    transition.before.refuses transition.event) = refused at progress
  cases progress with
  | underway position early here => simp [ended] at here
  | counting here => simp [ended] at here
  | sent here =>
      refine ⟨fun _ transition member => ?_, fun _ => List.any_eq_true.mp appends⟩
      exact Bool.eq_false_iff.mpr (List.any_eq_false.mp refuses transition member)
  | lost here =>
      constructor
      · rintro ⟨transition, member, append⟩
        exact absurd append (List.any_eq_false.mp appends transition member)
      · intro accepted
        obtain ⟨transition, member, refuse⟩ := List.any_eq_true.mp refuses
        exact absurd ((accepted transition member).symm.trans refuse) (by simp)

theorem call_appends_sample :
    ∃ transitions last,
      execute managerStep ((sinkOnly configSample true [47, 97]).enter ownedSample)
        [.callNext 0, .workerNext false, .callNext 0, .workerNext false, .callNext 0,
          .sinkNext 0 false false, .callNext 0] = some (transitions, last) ∧
      ((∃ transition ∈ transitions, appendsTo ownedSample transition = true) ↔
        ∀ transition ∈ transitions, transition.before.refuses transition.event = false) := by
  have ran : execute managerStep ((sinkOnly configSample true [47, 97]).enter ownedSample)
      [.callNext 0, .workerNext false, .callNext 0, .workerNext false, .callNext 0,
        .sinkNext 0 false false, .callNext 0] = some _ := rfl
  exact ⟨_, _, ran, call_appends_iff rfl rfl (by decide) (execution_of_execute ran) (by decide) rfl⟩

def callEvents : List ManagerEvent :=
  [.enter ownedSample, .callNext 0, .callNext 0, .callNext 0, .callNext 0]

/-- A session with an operations centre that does not answer: the worker retries the first
event while 128 others come. -/
def burstEvents : List ManagerEvent :=
  [.setLocalSink (some [47, 97]), .init ⟨[104], 3, true⟩ true] ++ callEvents ++
    [.workerNext false, .workerNext false, .workerNext false] ++
    (List.replicate 128 callEvents).flatten

def burst : List (Transition Manager ManagerEvent) × Manager :=
  (execute managerStep .fresh burstEvents).get (by decide +kernel)

theorem full_queue_loses_event :
    ¬∀ (past transitions : List (Transition Manager ManagerEvent)) (manager last : Manager)
        (qsev : OwnedQSEv), Execution managerStep .fresh past manager →
      manager.enabled = true → manager.sinkRunning = true →
      manager.sinkQueue.length < sinkDepth →
      Execution managerStep (manager.enter qsev) transitions last →
      (∀ transition ∈ transitions, transition.event.beside manager.calls.length = true) →
      last.calls = manager.calls →
      ∃ transition ∈ transitions, appendsTo qsev transition = true := by
  intro appends
  have filled : execute managerStep .fresh burstEvents = some (burst.1, burst.2) := by
    rw [Prod.mk.eta]
    exact (Option.some_get _).symm
  have reached := execution_of_execute filled
  have idle : burst.2.calls.length = 0 := by decide +kernel
  obtain ⟨lost, ran, ended, silent⟩ : ∃ lost : List (Transition Manager ManagerEvent) × Manager,
      execute managerStep (burst.2.enter ownedSample) [.callNext 0] = some lost ∧
        lost.2.calls = burst.2.calls ∧
        lost.1.all (fun transition => transition.event.beside 0 &&
          !appendsTo ownedSample transition) = true :=
    ⟨(execute managerStep (burst.2.enter ownedSample) [.callNext 0]).get (by decide +kernel),
      (Option.some_get (by decide +kernel)).symm, by decide +kernel, by decide +kernel⟩
  have beside : ∀ transition ∈ lost.1,
      transition.event.beside 0 = true ∧ appendsTo ownedSample transition = false := by
    simpa [List.all_eq_true] using silent
  obtain ⟨transition, member, append⟩ := appends burst.1 lost.1 burst.2 lost.2 ownedSample
    reached (by decide +kernel) (by decide +kernel) (by decide +kernel)
    (execution_of_execute ran) (by rw [idle]; exact fun t member => (beside t member).1) ended
  rw [(beside transition member).2] at append
  cases append

end Runs

end Idsm.IdsRm
