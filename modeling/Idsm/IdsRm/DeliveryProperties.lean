import Idsm.IdsRm.SinkLifecycleProperties

/-! Accounting of a session whose events all go to the local sink: what the worker's loop and
the drain behind it count, for every order of the calls, the worker and `DeInit`. -/

set_option autoImplicit false

namespace Idsm.IdsRm

open Idsm.Foundation

/-- The call put its event into the HTTP queue and did not count it yet. -/
def Call.behind (call : Call) : Bool := call.position != .entered

/-- The events that the worker took and did not count yet. -/
def WorkerPosition.held : WorkerPosition → Nat
  | .batch rest | .remaining rest => rest.length
  | .posting _ _ rest _ => rest.length + 1
  | _ => 0

/-- The worker emptied the queue for the last time. -/
def WorkerPosition.drained : WorkerPosition → Bool
  | .remaining _ | .finished => true
  | .posting _ _ _ draining => draining
  | _ => false

/-- The step leaves an event to the drain, or puts one into the queue behind it. -/
def Manager.leavesBehind (manager : Manager) : ManagerEvent → Bool
  | .workerNext _ => manager.worker == .drain && manager.eventQueue != []
  | .callNext index =>
      manager.worker.drained && manager.calls[index]?.any (·.position == .entered) &&
        decide (manager.eventQueue.length < queueDepth)
  | _ => false

/-- What the delivery's accounting reads and changes. -/
structure DeliveryView where
  url : List UInt8
  sinkRunning : Bool
  initialized : Bool
  deInit : Option DeInitStep
  worker : WorkerPosition
  queue : List OwnedQSEv
  behind : Nat
  received : Nat
  posted : Nat
  failed : Nat
  retries : Nat
  attempts : Nat

def Manager.deliveryView (manager : Manager) : DeliveryView where
  url := manager.socUrl
  sinkRunning := manager.sinkRunning
  initialized := manager.initialized
  deInit := manager.deInit
  worker := manager.worker
  queue := manager.eventQueue
  behind := manager.calls.countP Call.behind
  received := manager.stats.eventsReceived
  posted := manager.stats.eventsPosted
  failed := manager.stats.eventsFailed
  retries := manager.stats.httpRetries
  attempts := manager.attempts

/-- What holds in a session without an address of the operations centre. `late` says that an
event was left behind. -/
structure DeliveryView.Sound (view : DeliveryView) (late : Bool) : Prop where
  url : view.url = []
  running : view.worker ≠ .finished → view.sinkRunning = true
  joined : view.deInit = some .stopSink ∨ view.deInit = some .joinSink ∨
    view.deInit = some .finish ∨ view.initialized = false → view.worker = .finished
  draining : ∀ qsev attempt rest draining,
    view.worker = .posting qsev attempt rest draining → draining = true
  accounted : view.received + view.behind =
    view.posted + view.failed + view.queue.length + view.worker.held
  skipped : late = false → view.failed = 0 ∧ view.retries = 0 ∧ view.attempts = 0 ∧
    (view.worker.drained = true → view.worker.held = 0 ∧ view.queue = [])
  requested : late = true → 0 < view.attempts + view.retries ∨
    view.worker.drained = true ∧ 0 < view.worker.held + view.queue.length

section Calls

variable {calls : List Call} {call other : Call} {index : Nat} {property : Call → Bool}

theorem countP_set_add (found : calls[index]? = some call) :
    (calls.set index other).countP property + (if property call then 1 else 0) =
      calls.countP property + if property other then 1 else 0 := by
  induction calls generalizing index with
  | nil => cases found
  | cons first rest ih =>
      cases index with
      | zero =>
          obtain rfl := Option.some.inj found
          rw [List.set_cons_zero, List.countP_cons, List.countP_cons]
          omega
      | succ index =>
          have found := ih found
          rw [List.set_cons_succ, List.countP_cons, List.countP_cons]
          omega

theorem countP_eraseIdx_add (found : calls[index]? = some call) :
    (calls.eraseIdx index).countP property + (if property call then 1 else 0) =
      calls.countP property := by
  induction calls generalizing index with
  | nil => cases found
  | cons first rest ih =>
      cases index with
      | zero =>
          obtain rfl := Option.some.inj found
          rw [List.eraseIdx_cons_zero, List.countP_cons]
      | succ index =>
          have found := ih found
          rw [List.eraseIdx_cons_succ, List.countP_cons, List.countP_cons]
          omega

end Calls

section Steps

variable {manager later : Manager} {event : ManagerEvent} {late : Bool}

theorem deliveryView_enter {qsev : OwnedQSEv} :
    (manager.enter qsev).deliveryView = manager.deliveryView := by
  unfold Manager.enter Manager.deliveryView
  split
  · simp [Call.behind]
  · rfl

theorem deliveryView_sinkNext {index : Nat} {connects writes : Bool}
    (stepped : manager.sinkNext index connects writes = some later) :
    later.deliveryView = manager.deliveryView := by
  unfold Manager.sinkNext at stepped
  split at stepped
  next => cases stepped
  next =>
    split at stepped
    next =>
      obtain rfl := Option.some.inj stepped
      rfl
    next =>
      split at stepped
      next => cases stepped
      next =>
        obtain rfl := Option.some.inj stepped
        rfl
  next =>
    obtain rfl := Option.some.inj stepped
    unfold Manager.deliver
    split
    · split
      · rfl
      · rfl
    · rfl

/-- The sections of a call: its event joins the queue, or it is counted, or nothing changes
that the worker sees. -/
theorem callNext_cases {index : Nat} (stepped : manager.callNext index = some later) :
    (manager.calls[index]?.any (·.position == .entered) = true ∧
        manager.eventQueue.length < queueDepth ∧ ∃ qsev,
        later.deliveryView = { manager.deliveryView with
          queue := manager.eventQueue ++ [qsev]
          behind := manager.deliveryView.behind + 1 }) ∨
      (manager.leavesBehind (.callNext index) = false ∧
        later.deliveryView.behind + 1 = manager.deliveryView.behind ∧
        later.deliveryView = { manager.deliveryView with
          behind := later.deliveryView.behind
          received := manager.stats.eventsReceived + 1 }) ∨
      (manager.leavesBehind (.callNext index) = false ∧
        later.deliveryView = manager.deliveryView) := by
  unfold Manager.callNext at stepped
  split at stepped
  next => cases stepped
  next qsev found =>
    obtain rfl := Option.some.inj stepped
    have entered : manager.calls[index]?.any (·.position == .entered) = true := by
      rw [found]
      rfl
    unfold Manager.enqueue
    split
    next full =>
      have same := @countP_eraseIdx_add manager.calls _ index Call.behind found
      refine .inr (.inr ⟨?_, ?_⟩)
      · simp [Manager.leavesBehind, full]
      · exact congrArg (fun behind => { manager.deliveryView with behind }) same
    next room =>
      have more := @countP_set_add manager.calls _ ⟨qsev, .enqueued⟩ index Call.behind found
      refine .inl ⟨entered, Nat.lt_of_not_le room, qsev, ?_⟩
      exact congrArg (fun behind => { manager.deliveryView with
        queue := manager.eventQueue ++ [qsev], behind }) more
  next qsev found =>
    obtain rfl := Option.some.inj stepped
    refine .inr (.inr ⟨by simp [Manager.leavesBehind, found], ?_⟩)
    unfold Manager.readSink
    cases running : manager.sinkRunning with
    | true =>
        have same := @countP_set_add manager.calls _ ⟨qsev, .teeing⟩ index Call.behind found
        exact congrArg (fun behind => { manager.deliveryView with behind })
          (Nat.add_right_cancel same)
    | false =>
        have same := @countP_set_add manager.calls _ ⟨qsev, .counting⟩ index Call.behind found
        exact congrArg (fun behind => { manager.deliveryView with behind })
          (Nat.add_right_cancel same)
  next qsev found =>
    obtain rfl := Option.some.inj stepped
    have same := @countP_set_add manager.calls _ ⟨qsev, .counting⟩ index Call.behind found
    refine .inr (.inr ⟨by simp [Manager.leavesBehind, found], ?_⟩)
    unfold Manager.tee
    dsimp only
    split
    · exact congrArg (fun behind => { manager.deliveryView with behind })
        (Nat.add_right_cancel same)
    · exact congrArg (fun behind => { manager.deliveryView with behind })
        (Nat.add_right_cancel same)
  next qsev found =>
    obtain rfl := Option.some.inj stepped
    have fewer := @countP_eraseIdx_add manager.calls _ index Call.behind found
    exact .inr (.inl ⟨by simp [Manager.leavesBehind, found], fewer, rfl⟩)

theorem DeliveryView.Sound.enqueued {view : DeliveryView} {qsev : OwnedQSEv}
    (sound : view.Sound late) :
    { view with queue := view.queue ++ [qsev], behind := view.behind + 1 }.Sound
      (late || view.worker.drained) :=
  { sound with
    accounted := by
      have accounted := sound.accounted
      simp only [List.length_append, List.length_singleton]
      omega
    skipped := fun early => by
      obtain ⟨early, alive⟩ := Bool.or_eq_false_iff.mp early
      obtain ⟨failed, retries, attempts, _⟩ := sound.skipped early
      exact ⟨failed, retries, attempts, fun drained => absurd (alive.symm.trans drained) (by simp)⟩
    requested := fun left => by
      rcases Bool.or_eq_true_iff.mp left with before | drained
      · refine (sound.requested before).imp_right fun ⟨drained, owed⟩ => ⟨drained, ?_⟩
        simp only [List.length_append]
        omega
      · refine .inr ⟨drained, ?_⟩
        simp only [List.length_append, List.length_singleton]
        omega }

theorem DeliveryView.Sound.counted {view : DeliveryView} {behind : Nat} (sound : view.Sound late)
    (fewer : behind + 1 = view.behind) :
    { view with behind, received := view.received + 1 }.Sound late :=
  { sound with
    accounted := by
      have accounted := sound.accounted
      dsimp only
      omega }

theorem DeliveryView.Sound.callNext {index : Nat} (sound : manager.deliveryView.Sound late)
    (stepped : manager.callNext index = some later) :
    later.deliveryView.Sound (late || manager.leavesBehind (.callNext index)) := by
  obtain ⟨entered, room, qsev, same⟩ | ⟨kept, fewer, same⟩ | ⟨kept, same⟩ :=
    callNext_cases stepped
  · have left : manager.leavesBehind (.callNext index) = manager.worker.drained := by
      simp [Manager.leavesBehind, entered, room]
    rw [left, same]
    exact sound.enqueued
  · rw [kept, Bool.or_false, same]
    exact sound.counted fewer
  · rw [kept, Bool.or_false, same]
    exact sound

/-- The worker goes on with what it holds. -/
theorem DeliveryView.Sound.moved {view : DeliveryView} {position : WorkerPosition}
    (sound : view.Sound late) (alive : view.worker ≠ .finished)
    (held : position.held = view.worker.held) (drained : position.drained = view.worker.drained)
    (draining : ∀ qsev attempt rest draining,
      position = .posting qsev attempt rest draining → draining = true) :
    { view with worker := position }.Sound late :=
  { sound with
    running := fun _ => sound.running alive
    joined := fun ended => absurd (sound.joined ended) alive
    draining
    accounted := by
      have accounted := sound.accounted
      dsimp only
      omega
    skipped := by
      rw [held, drained]
      exact sound.skipped
    requested := by
      rw [held, drained]
      exact sound.requested }

theorem DeliveryView.Sound.moves {before position : WorkerPosition}
    (sound : manager.deliveryView.Sound late) (here : manager.worker = before)
    (alive : before ≠ .finished) (held : position.held = before.held)
    (drained : position.drained = before.drained)
    (draining : ∀ qsev attempt rest draining,
      position = .posting qsev attempt rest draining → draining = true) :
    Manager.deliveryView { manager with worker := position } |>.Sound late := by
  subst here
  exact sound.moved alive held drained draining

/-- The worker takes the whole queue into its batch. -/
theorem DeliveryView.Sound.batched {view : DeliveryView} (sound : view.Sound late)
    (position : view.worker = .waiting) :
    { view with worker := .batch view.queue, queue := [] }.Sound late := by
  have accounted := sound.accounted
  have alive : view.worker ≠ .finished := by simp [position]
  have skipped := sound.skipped
  have requested := sound.requested
  rw [position] at accounted skipped requested
  exact { sound with
    running := fun _ => sound.running alive
    joined := fun ended => absurd (sound.joined ended) alive
    draining := nofun
    accounted := by
      simp only [WorkerPosition.held, List.length_nil] at accounted ⊢
      omega
    skipped := fun early => by
      obtain ⟨failed, retries, attempts, _⟩ := skipped early
      exact ⟨failed, retries, attempts, nofun⟩
    requested := fun left => (requested left).imp_right fun ⟨drained, _⟩ => nomatch drained }

/-- The drain takes what is left in the queue. -/
theorem DeliveryView.Sound.drained {view : DeliveryView} (sound : view.Sound late)
    (position : view.worker = .drain) :
    { view with worker := .remaining view.queue, queue := [] }.Sound
      (late || view.queue != []) := by
  have accounted := sound.accounted
  have alive : view.worker ≠ .finished := by simp [position]
  have skipped := sound.skipped
  have requested := sound.requested
  rw [position] at accounted skipped requested
  exact { sound with
    running := fun _ => sound.running alive
    joined := fun ended => absurd (sound.joined ended) alive
    draining := nofun
    accounted := by
      simp only [WorkerPosition.held, List.length_nil] at accounted ⊢
      omega
    skipped := fun early => by
      obtain ⟨early, empty⟩ := Bool.or_eq_false_iff.mp early
      obtain ⟨failed, retries, attempts, _⟩ := skipped early
      have empty : view.queue = [] := by simpa using empty
      exact ⟨failed, retries, attempts, fun _ => ⟨by rw [empty]; rfl, rfl⟩⟩
    requested := fun left => by
      rcases Bool.or_eq_true_iff.mp left with before | some
      · exact (requested before).imp_right fun ⟨drained, _⟩ => nomatch drained
      · have some : view.queue ≠ [] := by simpa using some
        exact .inr ⟨rfl, List.length_pos_iff.mpr some⟩ }

/-- With the sink's flag set an event of the batch counts as posted. -/
theorem DeliveryView.Sound.posted {view : DeliveryView} {qsev : OwnedQSEv}
    {rest : List OwnedQSEv} (sound : view.Sound late)
    (position : view.worker = .batch (qsev :: rest)) :
    { view with worker := .batch rest, posted := view.posted + 1 }.Sound late := by
  have accounted := sound.accounted
  have alive : view.worker ≠ .finished := by simp [position]
  have skipped := sound.skipped
  have requested := sound.requested
  rw [position] at accounted skipped requested
  exact { sound with
    running := fun _ => sound.running alive
    joined := fun ended => absurd (sound.joined ended) alive
    draining := nofun
    accounted := by
      simp only [WorkerPosition.held, List.length_cons] at accounted ⊢
      omega
    skipped := fun early => by
      obtain ⟨failed, retries, attempts, _⟩ := skipped early
      exact ⟨failed, retries, attempts, nofun⟩
    requested := fun left => (requested left).imp_right fun ⟨drained, _⟩ => nomatch drained }

/-- A round of `postWithRetry` leaves a request or a retry behind. -/
theorem DeliveryView.Sound.asked {view : DeliveryView} {qsev : OwnedQSEv} {attempt : Nat}
    {rest : List OwnedQSEv} {worker : WorkerPosition} {posted failed retries attempts : Nat}
    (sound : view.Sound late) (position : view.worker = .posting qsev attempt rest true)
    (goes : ∀ qsev attempt rest draining,
      worker = .posting qsev attempt rest draining → draining = true)
    (accounted : posted + failed + worker.held = view.posted + view.failed + view.worker.held)
    (requested : 0 < attempts + retries) :
    { view with worker, posted, failed, retries, attempts }.Sound late := by
  have alive : view.worker ≠ .finished := by simp [position]
  have before := sound.accounted
  exact { sound with
    running := fun _ => sound.running alive
    joined := fun ended => absurd (sound.joined ended) alive
    draining := goes
    accounted := by
      dsimp only
      omega
    skipped := fun early => by
      have held := ((sound.skipped early).2.2.2 (by rw [position]; rfl)).1
      rw [position] at held
      cases held
    requested := fun _ => .inl requested }

theorem DeliveryView.Sound.post {success draining : Bool} {qsev : OwnedQSEv} {attempt : Nat}
    {rest : List OwnedQSEv} (sound : manager.deliveryView.Sound late)
    (position : manager.worker = .posting qsev attempt rest draining) :
    (manager.post success qsev attempt rest draining).deliveryView.Sound late := by
  obtain rfl : draining = true := sound.draining _ _ _ _ position
  have held : manager.deliveryView.worker.held = rest.length + 1 := by
    rw [Manager.deliveryView, position]
    rfl
  have ends : ∀ qsev attempt others draining,
      Manager.behindPost rest true = .posting qsev attempt others draining → draining = true :=
    nofun
  have succeeds : manager.stats.eventsPosted + 1 + manager.stats.eventsFailed + rest.length =
      manager.stats.eventsPosted + manager.stats.eventsFailed + (rest.length + 1) := by omega
  have fails : manager.stats.eventsPosted + (manager.stats.eventsFailed + 1) + rest.length =
      manager.stats.eventsPosted + manager.stats.eventsFailed + (rest.length + 1) := by omega
  have asks : 0 < manager.attempts + 1 + manager.stats.httpRetries := by omega
  have retries : 0 < (manager.attempts + if manager.curl = true then 1 else 0) +
      (manager.stats.httpRetries + 1) := by omega
  unfold Manager.post
  dsimp only
  split
  next answered =>
    rw [if_pos answered.1]
    apply sound.asked position ends
    · rw [held]
      exact succeeds
    · exact asks
  next =>
    split
    next =>
      apply sound.asked position
      · intro _ _ _ _ same
        cases same
        rfl
      · rw [held]
        rfl
      · exact retries
    next =>
      apply sound.asked position ends
      · rw [held]
        exact fails
      · exact retries

theorem DeliveryView.Sound.workerNext {success : Bool} (sound : manager.deliveryView.Sound late)
    (stepped : manager.workerNext success = some later) :
    later.deliveryView.Sound (late || manager.leavesBehind (.workerNext success)) := by
  unfold Manager.workerNext at stepped
  cases position : manager.worker with
  | head =>
      rw [position] at stepped
      obtain rfl := Option.some.inj stepped
      have kept : manager.leavesBehind (.workerNext success) = false := by
        simp [Manager.leavesBehind, position]
      rw [kept, Bool.or_false]
      cases running : manager.workerRunning with
      | true =>
          exact sound.moves position nofun rfl rfl nofun
      | false =>
          exact sound.moves position nofun rfl rfl nofun
  | waiting =>
      rw [position] at stepped
      have kept : manager.leavesBehind (.workerNext success) = false := by
        simp [Manager.leavesBehind, position]
      rw [kept, Bool.or_false]
      dsimp only at stepped
      split at stepped
      next =>
        split at stepped
        next => cases stepped
        next =>
          obtain rfl := Option.some.inj stepped
          exact sound.moves position nofun rfl rfl nofun
      next =>
        obtain rfl := Option.some.inj stepped
        exact sound.batched position
  | batch rest =>
      rw [position] at stepped
      have kept : manager.leavesBehind (.workerNext success) = false := by
        simp [Manager.leavesBehind, position]
      rw [kept, Bool.or_false]
      have alive : manager.deliveryView.worker ≠ .finished := by
        simp [Manager.deliveryView, position]
      cases rest with
      | nil =>
          obtain rfl := Option.some.inj stepped
          exact sound.moves position nofun rfl rfl nofun
      | cons qsev rest =>
          have url : manager.socUrl = [] := sound.url
          have running : manager.sinkRunning = true := sound.running alive
          dsimp only at stepped
          rw [if_pos url, if_pos running] at stepped
          obtain rfl := Option.some.inj stepped
          exact sound.posted position
  | posting qsev attempt rest draining =>
      rw [position] at stepped
      obtain rfl := Option.some.inj stepped
      have kept : manager.leavesBehind (.workerNext success) = false := by
        simp [Manager.leavesBehind, position]
      rw [kept, Bool.or_false]
      exact sound.post position
  | drain =>
      rw [position] at stepped
      obtain rfl := Option.some.inj stepped
      have left : manager.leavesBehind (.workerNext success) = (manager.eventQueue != []) := by
        simp [Manager.leavesBehind, position]
      rw [left]
      exact sound.drained position
  | remaining rest =>
      rw [position] at stepped
      have kept : manager.leavesBehind (.workerNext success) = false := by
        simp [Manager.leavesBehind, position]
      rw [kept, Bool.or_false]
      cases rest with
      | nil =>
          obtain rfl := Option.some.inj stepped
          exact sound.moves position nofun rfl rfl nofun
      | cons qsev rest =>
          obtain rfl := Option.some.inj stepped
          have draining : ∀ other attempt others draining,
              WorkerPosition.posting qsev 0 rest true = .posting other attempt others draining →
                draining = true := by
            intro _ _ _ _ same
            cases same
            rfl
          exact sound.moves position nofun rfl rfl draining
  | finished =>
      rw [position] at stepped
      cases stepped

/-- A `DeInit` that did not get past the worker's join. -/
theorem DeliveryView.Sound.waits {view : DeliveryView} {position : DeInitStep}
    (sound : view.Sound late) (early : position = .stopWorker ∨ position = .joinWorker) :
    { view with deInit := some position }.Sound late :=
  { sound with
    joined := fun ended => by
      obtain rfl | rfl := early
      · obtain left | left | left | shut := ended
        · cases left
        · cases left
        · cases left
        · exact sound.joined (.inr (.inr (.inr shut)))
      · obtain left | left | left | shut := ended
        · cases left
        · cases left
        · cases left
        · exact sound.joined (.inr (.inr (.inr shut))) }

theorem DeliveryView.Sound.deInitNext (sound : manager.deliveryView.Sound late)
    (stepped : manager.deInitNext = some later) : later.deliveryView.Sound late := by
  unfold Manager.deInitNext at stepped
  split at stepped
  next => cases stepped
  next position =>
    obtain rfl := Option.some.inj stepped
    exact sound.waits (.inr rfl)
  next position =>
    split at stepped
    next finished =>
      obtain rfl := Option.some.inj stepped
      exact { sound with joined := fun _ => finished }
    next => cases stepped
  next position =>
    obtain rfl := Option.some.inj stepped
    have finished := sound.joined (.inl position)
    exact { sound with
      running := fun alive => absurd finished alive
      joined := fun _ => finished }
  next position =>
    have finished := sound.joined (.inr (.inl position))
    split at stepped
    next => cases stepped
    next =>
      obtain rfl := Option.some.inj stepped
      exact { sound with joined := fun _ => finished }
  next position =>
    obtain rfl := Option.some.inj stepped
    have finished := sound.joined (.inr (.inr (.inl position)))
    exact { sound with joined := fun _ => finished }

/-- The steps of a session: `OnQsev` calls, the two threads and `DeInit`. -/
def ManagerEvent.delivers : ManagerEvent → Bool
  | .enter _ | .callNext _ | .workerNext _ | .sinkNext _ _ _ | .deInit | .deInitNext => true
  | _ => false

theorem DeliveryView.Sound.step (sound : manager.deliveryView.Sound late)
    (delivers : event.delivers = true) (stepped : managerStep manager event = some later) :
    later.deliveryView.Sound (late || manager.leavesBehind event) := by
  cases event with
  | enter qsev =>
      obtain rfl := Option.some.inj stepped
      have kept : manager.leavesBehind (.enter qsev) = false := rfl
      rw [kept, Bool.or_false, deliveryView_enter]
      exact sound
  | callNext index => exact sound.callNext stepped
  | workerNext success => exact sound.workerNext stepped
  | sinkNext index connects writes =>
      have kept : manager.leavesBehind (.sinkNext index connects writes) = false := rfl
      rw [kept, Bool.or_false, deliveryView_sinkNext stepped]
      exact sound
  | deInit =>
      have kept : manager.leavesBehind .deInit = false := rfl
      rw [kept, Bool.or_false]
      rw [managerStep] at stepped
      split at stepped
      next => cases stepped
      next =>
        split at stepped
        next =>
          obtain rfl := Option.some.inj stepped
          exact sound.waits (.inl rfl)
        next =>
          obtain rfl := Option.some.inj stepped
          exact sound
  | deInitNext =>
      have kept : manager.leavesBehind .deInitNext = false := rfl
      rw [kept, Bool.or_false]
      exact sound.deInitNext stepped
  | init config curl => cases delivers
  | setEnabled enabled => cases delivers
  | setSocUrl url => cases delivers
  | setLocalSink path => cases delivers
  | resetStats => cases delivers

end Steps

section Runs

variable {config : Config} {curl : Bool} {path : List UInt8}
  {transitions : List (Transition Manager ManagerEvent)} {last : Manager}

/-- A session with a local sink and without an address of the operations centre; the worker
has not run yet. -/
def sinkOnly (config : Config) (curl : Bool) (path : List UInt8) : Manager :=
  ((Manager.fresh.setLocalSink (some path)).init config curl).2

/-- The sink may be set before `Init` and behind it. -/
theorem sinkOnly_eq (sink : cText path 107 ≠ []) :
    sinkOnly config curl path = (Manager.fresh.init config curl).2.setLocalSink (some path) := by
  unfold sinkOnly Manager.init Manager.setLocalSink
  simp [Manager.fresh, Manager.start, Manager.startSink, sink]

theorem deliveryView_sinkOnly (url : cText config.socUrl 255 = [])
    (sink : cText path 107 ≠ []) : (sinkOnly config curl path).deliveryView.Sound false := by
  have started : (sinkOnly config curl path).deliveryView =
      ⟨[], true, true, none, .head, [], 0, 0, 0, 0, 0, 0⟩ := by
    unfold sinkOnly Manager.init Manager.setLocalSink
    simp [Manager.fresh, Manager.start, Manager.startSink, Manager.deliveryView, sink, url,
      Stats.zero]
  rw [started]
  exact {
    url := rfl
    running := fun _ => rfl
    joined := by simp
    draining := by rintro _ _ _ _ ⟨⟩
    accounted := rfl
    skipped := fun _ => ⟨rfl, rfl, rfl, by rintro ⟨⟩⟩
    requested := by rintro ⟨⟩ }

/-- After a session that only has a local sink, when its calls came to an end: every event
received is posted, none failed and no request was made, exactly when neither the drain nor
what comes behind it was left an event. -/
theorem sinkOnly_accounts_iff (url : cText config.socUrl 255 = []) (sink : cText path 107 ≠ [])
    (run : Execution managerStep (sinkOnly config curl path) transitions last)
    (delivers : ∀ transition ∈ transitions, transition.event.delivers = true)
    (closed : last.initialized = false) (ended : last.calls = []) :
    (last.stats.eventsReceived = last.stats.eventsPosted ∧ last.stats.eventsFailed = 0 ∧
      last.stats.httpRetries = 0 ∧ last.attempts = 0) ↔
    ∀ transition ∈ transitions, transition.before.leavesBehind transition.event = false := by
  have sound : last.deliveryView.Sound
      (transitions.any fun transition => transition.before.leavesBehind transition.event) := by
    apply run.invariant_of_past
      (fun past manager => manager.deliveryView.Sound
        (past.any fun transition => transition.before.leavesBehind transition.event))
      (fun _ _ event => event.delivers = true) _ (deliveryView_sinkOnly url sink)
      fun past transition rest split => delivers transition (by simp [split])
    intro past manager event later sound delivers stepped
    rw [List.any_append, List.any_cons, List.any_nil, Bool.or_false]
    exact sound.step delivers stepped
  have finished : last.worker = .finished := sound.joined (.inr (.inr (.inr closed)))
  have accounted : last.stats.eventsReceived =
      last.stats.eventsPosted + last.stats.eventsFailed + last.eventQueue.length := by
    have accounted := sound.accounted
    simp only [Manager.deliveryView, ended, finished, WorkerPosition.held, List.countP_nil,
      Nat.add_zero] at accounted
    exact accounted
  constructor
  · rintro ⟨same, failed, retries, attempts⟩ transition member
    have early : (transitions.any fun transition =>
        transition.before.leavesBehind transition.event) = false := by
      cases late : transitions.any fun transition =>
        transition.before.leavesBehind transition.event with
      | false => rfl
      | true =>
          rcases sound.requested late with requested | ⟨_, owed⟩
          · have requested : 0 < last.attempts + last.stats.httpRetries := requested
            omega
          · have owed : 0 < last.worker.held + last.eventQueue.length := owed
            rw [finished, WorkerPosition.held] at owed
            omega
            all_goals exact nofun
    exact Bool.eq_false_iff.mpr (List.any_eq_false.mp early transition member)
  · intro kept
    have early : (transitions.any fun transition =>
        transition.before.leavesBehind transition.event) = false :=
      List.any_eq_false.mpr fun transition member => Bool.eq_false_iff.mp (kept transition member)
    obtain ⟨failed, retries, attempts, left⟩ := sound.skipped early
    have failed : last.stats.eventsFailed = 0 := failed
    have empty : last.eventQueue = [] := (left (congrArg WorkerPosition.drained finished)).2
    rw [failed, empty] at accounted
    exact ⟨accounted, failed, retries, attempts⟩

def ownedSample : OwnedQSEv := ⟨1, 2, 3, .low, 1, false, ⟨0, 0, .autosar⟩, 0, []⟩

/-- An event that the worker's loop takes, and then `DeInit`. -/
def postedEvents : List ManagerEvent :=
  [.workerNext false, .enter ownedSample, .callNext 0, .callNext 0, .callNext 0, .callNext 0,
    .workerNext false, .workerNext false, .workerNext false, .deInit, .deInitNext,
    .workerNext false, .workerNext false, .workerNext false, .deInitNext, .deInitNext,
    .sinkNext 0 false false, .sinkNext 0 false false, .sinkNext 0 false false, .deInitNext,
    .deInitNext]

theorem sinkOnly_accounts_sample :
    ∃ transitions last,
      execute managerStep (sinkOnly configSample true [47, 97]) postedEvents =
        some (transitions, last) ∧
      ((last.stats.eventsReceived = last.stats.eventsPosted ∧ last.stats.eventsFailed = 0 ∧
        last.stats.httpRetries = 0 ∧ last.attempts = 0) ↔
      ∀ transition ∈ transitions, transition.before.leavesBehind transition.event = false) := by
  have ran : execute managerStep (sinkOnly configSample true [47, 97]) postedEvents = some _ := rfl
  exact ⟨_, _, ran, sinkOnly_accounts_iff rfl (by decide) (execution_of_execute ran)
    (by decide) rfl rfl⟩

/-- An event that comes while `DeInit` clears the flag, before the worker is at its wait. -/
def drainedEvents : List ManagerEvent :=
  [.enter ownedSample, .callNext 0, .callNext 0, .callNext 0, .callNext 0, .deInit, .deInitNext,
    .workerNext false, .workerNext false, .workerNext false, .workerNext true, .workerNext false,
    .deInitNext, .deInitNext, .sinkNext 0 false false, .sinkNext 0 false false,
    .sinkNext 0 false false, .deInitNext, .deInitNext]

theorem drain_makes_request :
    ¬∀ (config : Config) (curl : Bool) (path : List UInt8)
        (transitions : List (Transition Manager ManagerEvent)) (last : Manager),
      cText config.socUrl 255 = [] → cText path 107 ≠ [] →
      Execution managerStep (sinkOnly config curl path) transitions last →
      (∀ transition ∈ transitions, transition.event.delivers = true) →
      last.initialized = false → last.calls = [] →
      last.stats.eventsReceived = last.stats.eventsPosted ∧ last.stats.eventsFailed = 0 ∧
        last.stats.httpRetries = 0 ∧ last.attempts = 0 := by
  intro accounts
  have ran : execute managerStep (sinkOnly configSample true [47, 97]) drainedEvents = some _ := rfl
  obtain ⟨_, _, _, attempts⟩ := accounts configSample true [47, 97] _ _ rfl (by decide)
    (execution_of_execute ran) (by decide) rfl rfl
  cases attempts

end Runs

end Idsm.IdsRm
