import Idsm.IdsRm.Manager

/-! The sink thread over sequences of `Init`, `SetLocalSink` and `DeInit`: which call gives a
joinable thread object a new thread, and when a sink loop runs. -/

set_option autoImplicit false

namespace Idsm.IdsRm

open Idsm.Foundation

/-- What a session did with its sink: never used it, uses it, or switched it off. -/
inductive SinkUse where
  | idle
  | on
  | off
  deriving DecidableEq, Repr

/-- What the calls so far say about the sink. -/
structure SinkHistory where
  path : List UInt8
  session : Bool
  use : SinkUse
  deriving DecidableEq, Repr

def SinkUse.set (use : SinkUse) (path : List UInt8) : SinkUse :=
  match use with
  | .idle => if path = [] then .idle else .on
  | .on => if path = [] then .off else .on
  | .off => .off

def SinkHistory.next (history : SinkHistory) : ManagerEvent → SinkHistory
  | .init _ _ =>
      if history.session then history
      else { history with session := true, use := SinkUse.idle.set history.path }
  | .deInit => { history with session := false, use := .idle }
  | .setLocalSink path =>
      let path := cText (path.getD []) 107
      { history with path, use := if history.session then history.use.set path else .idle }
  | _ => history

def sinkHistory (events : List ManagerEvent) : SinkHistory :=
  events.foldl SinkHistory.next ⟨[], false, .idle⟩

/-- The call is about to give a new thread to a thread object that is joinable. -/
def AssignsJoinable (manager : Manager) (event : ManagerEvent) : Prop :=
  manager.deInit = none ∧ manager.sinkJoinable = true ∧
    ((∃ config curl, event = .init config curl ∧ manager.initialized = false ∧
        manager.sinkPath ≠ []) ∨
      ∃ path, event = .setLocalSink path ∧ manager.startsSink path = true)

/-- What the sink's calls and its thread read and change. -/
structure SinkView where
  initialized : Bool
  running : Bool
  path : List UInt8
  loops : List SinkPosition
  joinable : Bool
  deInit : Option DeInitStep

def Manager.sinkView (manager : Manager) : SinkView :=
  ⟨manager.initialized, manager.sinkRunning, manager.sinkPath, manager.sinkLoops,
    manager.sinkJoinable, manager.deInit⟩

def SinkUse.Shows (view : SinkView) : SinkUse → Prop
  | .idle => view.joinable = false ∧ view.path = []
  | .on => view.running = true ∧ view.path ≠ []
  | .off => view.joinable = true ∧ view.running = false ∧ view.path = []

/-- What holds of the sink in every state, with the calls so far. -/
structure SinkView.Sound (view : SinkView) (history : SinkHistory) : Prop where
  path : view.path = history.path
  single : view.loops.length ≤ 1
  joined : view.joinable = false → view.loops = [] ∧ view.running = false
  runs : view.running = true → view.loops ≠ []
  outside : view.initialized = false →
    view.joinable = false ∧ view.deInit = none ∧ history.session = false ∧ history.use = .idle
  leaving : view.deInit ≠ none → history.session = false ∧ history.use = .idle
  session : view.initialized = true → view.deInit = none →
    history.session = true ∧ history.use.Shows view
  stopping : view.deInit = some .joinSink ∨ view.deInit = some .finish → view.running = false
  finishing : view.deInit = some .finish → view.joinable = false

section Steps

variable {manager later : Manager} {event : ManagerEvent} {history : SinkHistory}

theorem sinkView_callNext {index : Nat} (stepped : manager.callNext index = some later) :
    later.sinkView = manager.sinkView := by
  unfold Manager.callNext at stepped
  split at stepped
  next => cases stepped
  next qsev _ =>
    obtain rfl := Option.some.inj stepped
    unfold Manager.enqueue
    split
    · rfl
    · rfl
  next qsev _ =>
    obtain rfl := Option.some.inj stepped
    rfl
  next qsev _ =>
    obtain rfl := Option.some.inj stepped
    unfold Manager.tee
    dsimp only
    split
    · rfl
    · rfl
  next =>
    obtain rfl := Option.some.inj stepped
    rfl

theorem sinkView_post {success draining : Bool} {qsev : OwnedQSEv} {attempt : Nat}
    {rest : List OwnedQSEv} :
    (manager.post success qsev attempt rest draining).sinkView = manager.sinkView := by
  unfold Manager.post
  dsimp only
  split
  · rfl
  · split
    · rfl
    · rfl

theorem sinkView_workerNext {success : Bool} (stepped : manager.workerNext success = some later) :
    later.sinkView = manager.sinkView := by
  unfold Manager.workerNext at stepped
  cases position : manager.worker with
  | head =>
      rw [position] at stepped
      obtain rfl := Option.some.inj stepped
      rfl
  | waiting =>
      rw [position] at stepped
      dsimp only at stepped
      split at stepped
      · split at stepped
        · cases stepped
        · obtain rfl := Option.some.inj stepped
          rfl
      · obtain rfl := Option.some.inj stepped
        rfl
  | batch rest =>
      rw [position] at stepped
      cases rest with
      | nil =>
          obtain rfl := Option.some.inj stepped
          rfl
      | cons qsev rest =>
          dsimp only at stepped
          split at stepped
          · obtain rfl := Option.some.inj stepped
            cases manager.sinkRunning with
            | true => rfl
            | false => rfl
          · obtain rfl := Option.some.inj stepped
            rfl
  | posting qsev attempt rest draining =>
      rw [position] at stepped
      obtain rfl := Option.some.inj stepped
      exact sinkView_post
  | drain =>
      rw [position] at stepped
      obtain rfl := Option.some.inj stepped
      rfl
  | remaining rest =>
      rw [position] at stepped
      cases rest with
      | nil =>
          obtain rfl := Option.some.inj stepped
          rfl
      | cons qsev rest =>
          obtain rfl := Option.some.inj stepped
          rfl
  | finished =>
      rw [position] at stepped
      cases stepped

theorem sinkView_deliver {connects writes : Bool} :
    (manager.deliver connects writes).sinkView = manager.sinkView := by
  unfold Manager.deliver
  split
  · split
    · rfl
    · rfl
  · rfl

/-- A sink loop only ends when its flag is gone. -/
theorem sinkNext_cases {index : Nat} {connects writes : Bool}
    (stepped : manager.sinkNext index connects writes = some later) :
    (∃ position, later.sinkView =
        { manager.sinkView with loops := manager.sinkLoops.set index position }) ∨
      manager.sinkRunning = false ∧
        later.sinkView = { manager.sinkView with loops := manager.sinkLoops.eraseIdx index } := by
  unfold Manager.sinkNext at stepped
  split at stepped
  next => cases stepped
  next =>
    split at stepped
    next qsev rest _ =>
      obtain rfl := Option.some.inj stepped
      exact .inl ⟨.holding qsev, rfl⟩
    next =>
      split at stepped
      next => cases stepped
      next stopped =>
        obtain rfl := Option.some.inj stepped
        exact .inr ⟨Bool.eq_false_iff.mpr stopped, rfl⟩
  next =>
    obtain rfl := Option.some.inj stepped
    have same := @sinkView_deliver manager connects writes
    exact .inl ⟨.waiting, congrArg (fun view : SinkView =>
      { view with loops := manager.sinkLoops.set index .waiting }) same⟩

theorem SinkUse.shows_loops {use : SinkUse} {view : SinkView} {loops : List SinkPosition} :
    use.Shows { view with loops } ↔ use.Shows view := by
  cases use with
  | idle => exact Iff.rfl
  | on => exact Iff.rfl
  | off => exact Iff.rfl

/-- The loops may change in number or position as long as one runs under a set flag. -/
theorem SinkView.Sound.withLoops {view : SinkView} {loops : List SinkPosition}
    (sound : view.Sound history) (fewer : loops.length ≤ view.loops.length)
    (runs : view.running = true → loops ≠ []) : { view with loops }.Sound history :=
  { sound with
    single := fewer.trans sound.single
    joined := fun joined => by
      obtain ⟨none, stopped⟩ := sound.joined joined
      rw [none] at fewer
      exact ⟨List.eq_nil_of_length_eq_zero (Nat.le_zero.mp fewer), stopped⟩
    runs
    session := fun initialized outside =>
      (sound.session initialized outside).imp_right SinkUse.shows_loops.2 }

theorem SinkView.Sound.sinkNext {index : Nat} {connects writes : Bool}
    (sound : manager.sinkView.Sound history)
    (stepped : manager.sinkNext index connects writes = some later) :
    later.sinkView.Sound history := by
  obtain ⟨position, same⟩ | ⟨stopped, same⟩ := sinkNext_cases stepped
  · rw [same]
    apply sound.withLoops
    · exact Nat.le_of_eq List.length_set
    · intro running none
      have length := congrArg List.length none
      rw [List.length_set] at length
      exact sound.runs running (List.eq_nil_of_length_eq_zero length)
  · rw [same]
    apply sound.withLoops
    · exact List.length_eraseIdx_le _ _
    · intro running
      have running : manager.sinkRunning = true := running
      rw [stopped] at running
      cases running

def SinkView.started (view : SinkView) (path : List UInt8) : SinkView :=
  { view with
    running := true, path, loops := view.loops ++ [SinkPosition.waiting], joinable := true }

/-- The flag is set and a loop starts where there is none. -/
theorem SinkView.Sound.started {view : SinkView} {path : List UInt8}
    (sound : view.Sound history) (initialized : view.initialized = true)
    (joined : view.joinable = false) (outside : view.deInit = none) (some : path ≠ []) :
    (view.started path).Sound ⟨path, true, .on⟩ := by
  have none := (sound.joined joined).1
  refine ⟨rfl, ?_, nofun, fun _ => by simp [SinkView.started],
    fun shut => absurd (initialized.symm.trans shut) (by simp),
    fun leaving => absurd outside leaving, fun _ _ => ⟨rfl, rfl, some⟩, ?_, ?_⟩
  · rw [SinkView.started, none]
    exact Nat.le_refl 1
  · rw [SinkView.started, outside]
    exact nofun
  · rw [SinkView.started, outside]
    exact nofun

/-- A session without a sink. -/
theorem SinkView.Sound.unused {view : SinkView} (sound : view.Sound history)
    (joined : view.joinable = false) (outside : view.deInit = none) :
    { view with initialized := true, path := [] }.Sound ⟨[], true, .idle⟩ :=
  { sound with
    path := rfl
    outside := nofun
    leaving := fun leaving => absurd outside leaving
    session := fun _ _ => ⟨rfl, joined, rfl⟩ }

theorem SinkView.Sound.init {config : Config} {curl : Bool}
    (sound : manager.sinkView.Sound history)
    (stepped : managerStep manager (.init config curl) = some later) :
    later.sinkView.Sound (history.next (.init config curl)) := by
  rw [managerStep] at stepped
  split at stepped
  next => cases stepped
  next outside =>
    have outside : manager.deInit = none := Option.not_isSome_iff_eq_none.mp outside
    split at stepped
    next => cases stepped
    next =>
      obtain rfl := Option.some.inj stepped
      unfold Manager.init
      cases initialized : manager.initialized with
      | true =>
          have opened := (sound.session initialized outside).1
          rw [SinkHistory.next, if_pos opened]
          exact sound
      | false =>
          obtain ⟨joined, _, closed, unused⟩ := sound.outside initialized
          have path : manager.sinkPath = history.path := sound.path
          have shut : ¬history.session = true := by simp [closed]
          rw [SinkHistory.next, if_neg shut, ← path, if_neg Bool.false_ne_true]
          unfold Manager.start
          dsimp only
          by_cases none : manager.sinkPath = []
          · rw [if_pos none, SinkUse.set, if_pos none, none]
            exact sound.unused joined outside
          · rw [if_neg none, SinkUse.set, if_neg none]
            exact (sound.unused joined outside).started rfl joined outside none

/-- What `SetLocalSink` does to the sink. -/
def SinkView.set (view : SinkView) (path : List UInt8) : SinkView :=
  if view.initialized = false then { view with path }
  else if path ≠ [] ∧ view.running = false then view.started path
  else if path = [] ∧ view.running = true then { view with path, running := false }
  else { view with path }

theorem sinkView_setLocalSink (path : Option (List UInt8)) :
    (manager.setLocalSink path).sinkView = manager.sinkView.set (cText (path.getD []) 107) := by
  unfold Manager.setLocalSink SinkView.set Manager.sinkView
  dsimp only
  split_ifs <;> rfl

/-- A path for a module that is not initialised, and one that leaves flag and threads. -/
theorem SinkView.Sound.stays {view : SinkView} {path : List UInt8} {use : SinkUse}
    (sound : view.Sound history) (initialized : view.initialized = true)
    (outside : view.deInit = none) (shows : use.Shows { view with path }) :
    { view with path }.Sound ⟨path, history.session, use⟩ :=
  { sound with
    path := rfl
    outside := fun shut => absurd (initialized.symm.trans shut) (by simp)
    leaving := fun leaving => absurd outside leaving
    session := fun _ _ => ⟨(sound.session initialized outside).1, shows⟩ }

/-- The flag is cleared and the loops and the thread object stay. -/
theorem SinkView.Sound.switchedOff {view : SinkView} (sound : view.Sound history)
    (initialized : view.initialized = true) (outside : view.deInit = none)
    (running : view.running = true) :
    { view with path := [], running := false }.Sound ⟨[], history.session, .off⟩ := by
  have joinable : view.joinable = true := by
    cases joined : view.joinable with
    | true => rfl
    | false => exact absurd ((sound.joined joined).2.symm.trans running) (by simp)
  exact { sound with
    path := rfl
    joined := fun joined => absurd (joinable.symm.trans joined) (by simp)
    runs := nofun
    outside := fun shut => absurd (initialized.symm.trans shut) (by simp)
    leaving := fun leaving => absurd outside leaving
    session := fun _ _ =>
      ⟨(sound.session initialized outside).1, joinable, rfl, rfl⟩
    stopping := fun _ => rfl }

theorem SinkView.Sound.set {view : SinkView} {path : List UInt8} (sound : view.Sound history)
    (outside : view.deInit = none)
    (single : ¬(view.initialized = true ∧ path ≠ [] ∧ view.running = false ∧
      view.joinable = true)) :
    (view.set path).Sound
      { history with path, use := if history.session then history.use.set path else .idle } := by
  unfold SinkView.set
  by_cases initialized : view.initialized = false
  · obtain ⟨joined, _, closed, _⟩ := sound.outside initialized
    rw [if_pos initialized, if_neg (by simp [closed])]
    exact { sound with
      path := rfl
      outside := fun _ => ⟨joined, outside, closed, rfl⟩
      leaving := fun leaving => absurd outside leaving
      session := fun started => absurd (initialized.symm.trans started) (by simp) }
  · have started : view.initialized = true := by simpa using initialized
    obtain ⟨opened, shows⟩ := sound.session started outside
    rw [if_neg initialized, if_pos opened]
    cases use : history.use with
    | idle =>
        rw [use] at shows
        obtain ⟨joined, blank⟩ := shows
        have stopped := (sound.joined joined).2
        by_cases none : path = []
        · rw [if_neg fun both => both.1 none, if_neg (by simp [stopped]), SinkUse.set,
            if_pos none]
          exact sound.stays started outside ⟨joined, none⟩
        · rw [if_pos ⟨none, stopped⟩, SinkUse.set, if_neg none, opened]
          exact sound.started started joined outside none
    | on =>
        rw [use] at shows
        obtain ⟨running, _⟩ := shows
        rw [if_neg (by simp [running])]
        by_cases none : path = []
        · rw [if_pos ⟨none, running⟩, SinkUse.set, if_pos none, none]
          exact sound.switchedOff started outside running
        · rw [if_neg fun both => none both.1, SinkUse.set, if_neg none]
          exact sound.stays started outside ⟨running, none⟩
    | off =>
        rw [use] at shows
        obtain ⟨joinable, stopped, _⟩ := shows
        have none : path = [] :=
          Decidable.byContradiction fun some => single ⟨started, some, stopped, joinable⟩
        rw [if_neg fun both => both.1 none, if_neg (by simp [stopped]), SinkUse.set]
        exact sound.stays started outside ⟨joinable, stopped, none⟩

theorem SinkView.Sound.setLocalSink {path : Option (List UInt8)}
    (sound : manager.sinkView.Sound history)
    (stepped : managerStep manager (.setLocalSink path) = some later) :
    later.sinkView.Sound (history.next (.setLocalSink path)) := by
  rw [managerStep] at stepped
  split at stepped
  next => cases stepped
  next outside =>
    split at stepped
    next => cases stepped
    next single =>
      obtain rfl := Option.some.inj stepped
      rw [sinkView_setLocalSink]
      apply sound.set (Option.not_isSome_iff_eq_none.mp outside)
      rintro ⟨initialized, some, stopped, joinable⟩
      apply single
      have initialized : manager.initialized = true := initialized
      have stopped : manager.sinkRunning = false := stopped
      exact ⟨by simp [Manager.startsSink, initialized, stopped, some], joinable⟩

theorem SinkView.Sound.deInit (sound : manager.sinkView.Sound history)
    (stepped : managerStep manager .deInit = some later) :
    later.sinkView.Sound (history.next .deInit) := by
  rw [managerStep] at stepped
  split at stepped
  next => cases stepped
  next =>
    split at stepped
    next initialized =>
      obtain rfl := Option.some.inj stepped
      exact { sound with
        outside := fun shut => absurd (initialized.symm.trans shut) (by simp)
        leaving := fun _ => ⟨rfl, rfl⟩
        session := fun _ => nofun
        stopping := nofun
        finishing := nofun }
    next shut =>
      obtain rfl := Option.some.inj stepped
      obtain ⟨joined, outside, closed, unused⟩ := sound.outside (Bool.eq_false_iff.mpr shut)
      have same : history.next .deInit = history := by
        rw [SinkHistory.next, ← closed, ← unused]
      rw [same]
      exact sound

/-- What the parts of a `DeInit` do to the sink. -/
theorem deInitNext_cases (stepped : manager.deInitNext = some later) :
    (manager.deInit = some .stopWorker ∧
        later.sinkView = { manager.sinkView with deInit := some .joinWorker }) ∨
      (manager.deInit = some .joinWorker ∧
        later.sinkView = { manager.sinkView with deInit := some .stopSink }) ∨
      (manager.deInit = some .stopSink ∧
        later.sinkView = { manager.sinkView with
          running := false, deInit := some .joinSink }) ∨
      (manager.deInit = some .joinSink ∧ (manager.sinkJoinable = true → manager.sinkLoops = []) ∧
        later.sinkView = { manager.sinkView with joinable := false, deInit := some .finish }) ∨
      (manager.deInit = some .finish ∧
        later.sinkView = { manager.sinkView with initialized := false, deInit := none }) := by
  unfold Manager.deInitNext at stepped
  split at stepped
  next => cases stepped
  next position =>
    obtain rfl := Option.some.inj stepped
    exact .inl ⟨position, rfl⟩
  next position =>
    split at stepped
    next =>
      obtain rfl := Option.some.inj stepped
      exact .inr (.inl ⟨position, rfl⟩)
    next => cases stepped
  next position =>
    obtain rfl := Option.some.inj stepped
    exact .inr (.inr (.inl ⟨position, rfl⟩))
  next position =>
    split at stepped
    next => cases stepped
    next joins =>
      obtain rfl := Option.some.inj stepped
      refine .inr (.inr (.inr (.inl ⟨position, fun joinable => ?_, rfl⟩)))
      exact Decidable.byContradiction fun some => joins ⟨joinable, some⟩
  next position =>
    obtain rfl := Option.some.inj stepped
    exact .inr (.inr (.inr (.inr ⟨position, rfl⟩)))

theorem SinkView.Sound.deInitNext (sound : manager.sinkView.Sound history)
    (stepped : manager.deInitNext = some later) : later.sinkView.Sound history := by
  have started : manager.deInit ≠ none → manager.initialized = true := by
    intro inside
    cases initialized : manager.initialized with
    | true => rfl
    | false => exact absurd (sound.outside initialized).2.1 inside
  obtain ⟨position, same⟩ | ⟨position, same⟩ | ⟨position, same⟩ | ⟨position, joins, same⟩ |
    ⟨position, same⟩ := deInitNext_cases stepped
  all_goals
    rw [same]
    have inside : manager.deInit ≠ none := by simp [position]
    have initialized := started inside
    have left := sound.leaving inside
  · exact { sound with
      outside := fun shut => absurd (initialized.symm.trans shut) (by simp)
      leaving := fun _ => left
      session := fun _ => nofun
      stopping := nofun
      finishing := nofun }
  · exact { sound with
      outside := fun shut => absurd (initialized.symm.trans shut) (by simp)
      leaving := fun _ => left
      session := fun _ => nofun
      stopping := nofun
      finishing := nofun }
  · exact { sound with
      joined := fun joined => ⟨(sound.joined joined).1, rfl⟩
      runs := nofun
      outside := fun shut => absurd (initialized.symm.trans shut) (by simp)
      leaving := fun _ => left
      session := fun _ => nofun
      stopping := fun _ => rfl
      finishing := nofun }
  · have stopped : manager.sinkRunning = false := sound.stopping (.inl position)
    have ended : manager.sinkLoops = [] := by
      cases joinable : manager.sinkJoinable with
      | true => exact joins joinable
      | false => exact (sound.joined joinable).1
    exact { sound with
      joined := fun _ => ⟨ended, stopped⟩
      outside := fun shut => absurd (initialized.symm.trans shut) (by simp)
      leaving := fun _ => left
      session := fun _ => nofun
      stopping := fun _ => stopped
      finishing := fun _ => rfl }
  · have joined : manager.sinkJoinable = false := sound.finishing position
    exact { sound with
      outside := fun _ => ⟨joined, rfl, left⟩
      leaving := fun _ => left
      session := nofun
      stopping := nofun
      finishing := nofun }

theorem SinkView.Sound.step (sound : manager.sinkView.Sound history)
    (stepped : managerStep manager event = some later) :
    later.sinkView.Sound (history.next event) := by
  cases event with
  | init config curl => exact sound.init stepped
  | deInit => exact sound.deInit stepped
  | deInitNext => exact sound.deInitNext stepped
  | setEnabled enabled =>
      obtain rfl := Option.some.inj stepped
      split
      · exact sound
      · exact sound
  | setSocUrl url =>
      obtain rfl := Option.some.inj stepped
      split
      · exact sound
      · exact sound
  | setLocalSink path => exact sound.setLocalSink stepped
  | resetStats =>
      obtain rfl := Option.some.inj stepped
      exact sound
  | enter qsev =>
      obtain rfl := Option.some.inj stepped
      unfold Manager.enter
      split
      · exact sound
      · exact sound
  | callNext index =>
      rw [sinkView_callNext stepped]
      exact sound
  | workerNext success =>
      rw [sinkView_workerNext stepped]
      exact sound
  | sinkNext index connects writes => exact sound.sinkNext stepped

/-- A thread object gets a second thread exactly when the sink is switched on again. -/
theorem SinkView.Sound.assignsJoinable_iff (sound : manager.sinkView.Sound history) :
    AssignsJoinable manager event ↔
      manager.deInit = none ∧ history.use = .off ∧
        ∃ path, event = .setLocalSink path ∧ cText (path.getD []) 107 ≠ [] := by
  constructor
  · rintro ⟨outside, joinable, ⟨_, _, _, shut, _⟩ | ⟨path, rfl, starts⟩⟩
    · exact absurd (joinable.symm.trans (sound.outside shut).1) (by simp)
    · obtain ⟨⟨initialized, some⟩, stopped⟩ : (manager.initialized = true ∧
          cText (path.getD []) 107 ≠ []) ∧ manager.sinkRunning = false := by
        simpa [Manager.startsSink] using starts
      refine ⟨outside, ?_, path, rfl, some⟩
      have shows := (sound.session initialized outside).2
      cases use : history.use with
      | idle =>
          rw [use] at shows
          exact absurd (joinable.symm.trans shows.1) (by simp)
      | on =>
          rw [use] at shows
          exact absurd (stopped.symm.trans shows.1) (by simp)
      | off => rfl
  · rintro ⟨outside, use, path, rfl, some⟩
    have initialized : manager.initialized = true := by
      cases initialized : manager.initialized with
      | true => rfl
      | false =>
          have idle := (sound.outside initialized).2.2.2
          rw [use] at idle
          cases idle
    have shows := (sound.session initialized outside).2
    rw [use] at shows
    obtain ⟨joinable, stopped, _⟩ := shows
    have stopped : manager.sinkRunning = false := stopped
    refine ⟨outside, joinable, .inr ⟨path, rfl, ?_⟩⟩
    rw [Manager.startsSink, initialized, stopped]
    exact Bool.and_true _ ▸ bne_iff_ne.mpr some

/-- While a path is set in a session a sink loop runs. -/
theorem SinkView.Sound.serves (sound : manager.sinkView.Sound history)
    (outside : manager.deInit = none) (initialized : manager.initialized = true)
    (path : manager.sinkPath ≠ []) : manager.sinkLoops ≠ [] := by
  have shows := (sound.session initialized outside).2
  cases use : history.use with
  | idle =>
      rw [use] at shows
      exact absurd shows.2 path
  | on =>
      rw [use] at shows
      exact sound.runs shows.1
  | off =>
      rw [use] at shows
      exact absurd shows.2.2 path

end Steps

section Runs

variable {transitions : List (Transition Manager ManagerEvent)} {last : Manager}

def eventsOf (transitions : List (Transition Manager ManagerEvent)) : List ManagerEvent :=
  transitions.map Transition.event

theorem sinkHistory_append (events : List ManagerEvent) (event : ManagerEvent) :
    sinkHistory (events ++ [event]) = (sinkHistory events).next event := by
  rw [sinkHistory, List.foldl_append]
  rfl

theorem SinkView.sound_fresh : Manager.fresh.sinkView.Sound (sinkHistory []) where
  path := rfl
  single := Nat.zero_le 1
  joined := fun _ => ⟨rfl, rfl⟩
  runs := nofun
  outside := fun _ => ⟨rfl, rfl, rfl, rfl⟩
  leaving := fun inside => absurd rfl inside
  session := nofun
  stopping := fun inside => by simp [Manager.sinkView, Manager.fresh] at inside
  finishing := nofun

theorem sinkView_sound (run : Execution managerStep .fresh transitions last) :
    last.sinkView.Sound (sinkHistory (eventsOf transitions)) := by
  apply run.invariant_of_past
    (fun past manager => manager.sinkView.Sound (sinkHistory (eventsOf past)))
    (fun _ _ _ => True) _ SinkView.sound_fresh fun _ _ _ _ => trivial
  intro past manager event later sound _ stepped
  have events : eventsOf (past ++ [⟨manager, event, later⟩]) = eventsOf past ++ [event] :=
    List.map_append
  rw [events, sinkHistory_append]
  exact sound.step stepped

/-- For every run from the first call on: the next call assigns to a joinable thread exactly
when it switches on a sink that the session switched off; one sink loop runs at most, and one
runs while a path is set. -/
theorem localSink_safe_iff (run : Execution managerStep .fresh transitions last) :
    (∀ event, AssignsJoinable last event ↔
      last.deInit = none ∧ (sinkHistory (eventsOf transitions)).use = .off ∧
        ∃ path, event = .setLocalSink path ∧ cText (path.getD []) 107 ≠ []) ∧
    last.sinkLoops.length ≤ 1 ∧
    (last.deInit = none → last.initialized = true → last.sinkPath ≠ [] →
      last.sinkLoops ≠ []) := by
  have sound := sinkView_sound run
  exact ⟨fun _ => sound.assignsJoinable_iff, sound.single, sound.serves⟩

/-- A configuration without an address of the operations centre. -/
def configSample : Config := ⟨[], 3, true⟩

theorem localSink_safe_sample :
    ∃ transitions last, execute managerStep .fresh
        [.setLocalSink (some [47, 97]), .init configSample true, .setLocalSink none,
          .sinkNext 0 false false, .deInit, .deInitNext, .workerNext false, .workerNext false,
          .workerNext false, .deInitNext, .deInitNext, .deInitNext, .deInitNext,
          .setLocalSink (some [47, 98]), .init configSample true] = some (transitions, last) ∧
      (∀ event, AssignsJoinable last event ↔
        last.deInit = none ∧ (sinkHistory (eventsOf transitions)).use = .off ∧
          ∃ path, event = .setLocalSink path ∧ cText (path.getD []) 107 ≠ []) ∧
      last.sinkLoops.length ≤ 1 ∧
      (last.deInit = none → last.initialized = true → last.sinkPath ≠ [] →
        last.sinkLoops ≠ []) := by
  have ran : execute managerStep .fresh
      [.setLocalSink (some [47, 97]), .init configSample true, .setLocalSink none,
        .sinkNext 0 false false, .deInit, .deInitNext, .workerNext false, .workerNext false,
        .workerNext false, .deInitNext, .deInitNext, .deInitNext, .deInitNext,
        .setLocalSink (some [47, 98]), .init configSample true] = some _ := rfl
  exact ⟨_, _, ran, localSink_safe_iff (execution_of_execute ran)⟩

/-- A sink that is switched on, off and on again in one session. -/
theorem switchedOnAgain_assignsJoinable :
    ∃ transitions last, execute managerStep .fresh
        [.init configSample true, .setLocalSink (some [47, 97]), .setLocalSink none] =
      some (transitions, last) ∧ AssignsJoinable last (.setLocalSink (some [47, 97])) :=
  ⟨_, _, rfl, rfl, rfl, .inr ⟨_, rfl, rfl⟩⟩

end Runs

end Idsm.IdsRm
