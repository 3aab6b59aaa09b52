import Idsm.IdsM.StatsProperties

/-! Starting and stopping the manager in sequences of any length: which `Init` comes beside a
worker thread that nobody joined, and what a started manager begins with. -/

set_option autoImplicit false

namespace Idsm.IdsM

open Idsm.Foundation

/-- An `Init` whose configuration is accepted. -/
def ManagerEvent.starts : ManagerEvent → Bool
  | .init config => (Manager.fresh.init config).1 == .ok
  | _ => false

def ManagerEvent.joins : ManagerEvent → Bool
  | .join => true
  | _ => false

/-- After the last accepted `Init` of these events no `DeInit` came to its end. -/
def sessionOpen (events : List ManagerEvent) : Bool :=
  events.foldl (fun opened event => event.starts || opened && !event.joins) false

/-- `Init` is about to assign a new thread to one that is joinable. -/
def AssignsJoinable (manager : Manager) (event : ManagerEvent) : Prop :=
  ∃ config, event = .init config ∧ (manager.init config).1 = .ok ∧ manager.joinable = true

/-- The states and the counters of a manager just started; nothing waits in its queue or in
the worker's batch. -/
structure StartsEmpty (manager : Manager) : Prop where
  incoming : manager.incoming = []
  batch : manager.batch = []
  sevs : ∃ configs : List SecurityEventConfig, manager.sevs = configs.map SevState.initial
  tally : manager.tally = .zero

section Steps

variable {manager later : Manager} {event : ManagerEvent} {events : List ManagerEvent}

theorem init_result (manager other : Manager) (config : Option Config) :
    (manager.init config).1 = (other.init config).1 := by
  unfold Manager.init
  cases config with
  | none => rfl
  | some config =>
      dsimp only
      cases config.configs with
      | none => rfl
      | some sevConfigs =>
          dsimp only
          cases config.accepted sevConfigs with
          | true => rfl
          | false => rfl

theorem assignsJoinable_iff :
    AssignsJoinable manager event ↔ event.starts = true ∧ manager.joinable = true := by
  unfold AssignsJoinable
  constructor
  · rintro ⟨config, rfl, accepted, joinable⟩
    exact ⟨beq_iff_eq.mpr ((init_result _ _ config).trans accepted), joinable⟩
  · rintro ⟨starts, joinable⟩
    cases event with
    | init config =>
        exact ⟨config, rfl, (init_result _ _ config).trans (beq_iff_eq.mp starts), joinable⟩
    | _ => cases starts

/-- Such an `Init` is the end of the process. -/
theorem AssignsJoinable.no_step (assigns : AssignsJoinable manager event) :
    managerStep manager event = none := by
  obtain ⟨config, rfl, accepted, joinable⟩ := assigns
  exact if_pos ⟨accepted, joinable⟩

theorem sessionOpen_append (event : ManagerEvent) :
    sessionOpen (events ++ [event]) = (event.starts || sessionOpen events && !event.joins) := by
  rw [sessionOpen, List.foldl_append, ← sessionOpen]
  rfl

theorem setSev_joinable {sevId : UInt16} {state : SevState} :
    (manager.setSev sevId state).joinable = manager.joinable := rfl

/-- Only an accepted `Init` and the end of a `DeInit` change whether the thread is joinable. -/
theorem joinable_stepped (stepped : managerStep manager event = some later) :
    later.joinable = (event.starts || manager.joinable && !event.joins) := by
  cases event with
  | init config =>
      rw [managerStep] at stepped
      have same := init_result Manager.fresh manager config
      obtain ⟨result, refused, found⟩ | ⟨accepted, sevConfigs, found⟩ := init_cases manager config
      · rw [found] at stepped same
        dsimp only at stepped same
        rw [if_neg fun both => refused both.1] at stepped
        obtain rfl := Option.some.inj stepped
        have starts : (ManagerEvent.init config).starts = false := by
          rw [ManagerEvent.starts, same]
          exact beq_eq_false_iff_ne.mpr refused
        rw [starts]
        exact (Bool.and_true _).symm
      · rw [found] at stepped same
        dsimp only at stepped same
        have starts : (ManagerEvent.init config).starts = true := beq_iff_eq.mpr same
        rw [starts]
        split at stepped
        next => cases stepped
        next =>
          obtain rfl := Option.some.inj stepped
          rfl
  | join =>
      rw [managerStep] at stepped
      split at stepped
      next =>
        obtain rfl := Option.some.inj stepped
        rw [ManagerEvent.joins, Bool.not_true, Bool.and_false]
        rfl
      next => cases stepped
  | report checked sevId contextData contextVersion count timestamp =>
      rw [managerStep] at stepped
      cases checked with
      | false =>
          obtain rfl := Option.some.inj stepped
          exact (Bool.and_true _).symm
      | true =>
          obtain rfl := Option.some.inj stepped
          unfold Manager.report
          split
          · exact (Bool.and_true _).symm
          · exact (Bool.and_true _).symm
  | setReportingMode sevId mode =>
      obtain rfl := Option.some.inj stepped
      unfold Manager.setReportingMode
      split
      · exact (Bool.and_true _).symm
      · exact (Bool.and_true _).symm
  | resetDetectionStatus sevId =>
      obtain rfl := Option.some.inj stepped
      unfold Manager.resetDetectionStatus
      split
      · exact (Bool.and_true _).symm
      · exact (Bool.and_true _).symm
  | flushEvents sevId nowMs =>
      obtain rfl := Option.some.inj stepped
      unfold Manager.flushEvents
      split
      · exact (Bool.and_true _).symm
      · split
        · exact (Bool.and_true _).symm
        · exact (Bool.and_true _).symm
  | wait nowMs =>
      rw [managerStep] at stepped
      split at stepped
      next =>
        obtain rfl := Option.some.inj stepped
        dsimp only
        split
        · exact (Bool.and_true _).symm
        · exact (Bool.and_true _).symm
      next => cases stepped
  | process clock =>
      rw [managerStep] at stepped
      split at stepped
      next =>
        split at stepped
        next =>
          obtain rfl := Option.some.inj stepped
          exact (Bool.and_true _).symm
        next =>
          obtain rfl := Option.some.inj stepped
          dsimp only
          unfold Manager.processEvent
          split
          · exact (Bool.and_true _).symm
          · exact (Bool.and_true _).symm
      next => cases stepped
  | drain =>
      rw [managerStep] at stepped
      split at stepped
      next =>
        obtain rfl := Option.some.inj stepped
        exact (Bool.and_true _).symm
      next => cases stepped
  | expire nowMs =>
      rw [managerStep] at stepped
      split at stepped
      next =>
        obtain rfl := Option.some.inj stepped
        exact (Bool.and_true _).symm
      next => cases stepped
  | _ =>
      obtain rfl := Option.some.inj stepped
      exact (Bool.and_true _).symm

/-- An `Init` that starts finds no event of an earlier session. -/
theorem Manager.Sound.startsEmpty (sound : manager.Sound) (starts : event.starts = true)
    (stepped : managerStep manager event = some later) : StartsEmpty later := by
  cases event with
  | init config =>
      have accepted := (init_result manager _ config).trans (beq_iff_eq.mp starts)
      rw [managerStep] at stepped
      obtain ⟨result, refused, found⟩ | ⟨_, sevConfigs, found⟩ := init_cases manager config
      · rw [found] at accepted
        exact absurd accepted refused
      · rw [found] at stepped
        dsimp only at stepped
        split at stepped
        next => cases stepped
        next single =>
          obtain rfl := Option.some.inj stepped
          obtain ⟨_, incoming, batch⟩ :=
            sound.unused (Bool.eq_false_iff.mpr fun joinable => single ⟨rfl, joinable⟩)
          exact ⟨incoming, batch, ⟨sevConfigs, rfl⟩, rfl⟩
  | _ => cases starts

end Steps

section Runs

variable {transitions : List (Transition Manager ManagerEvent)} {last : Manager}

def eventsOf (transitions : List (Transition Manager ManagerEvent)) : List ManagerEvent :=
  transitions.map Transition.event

/-- In every run the thread is joinable exactly while a session is open. -/
theorem joinable_sessionOpen (run : Execution managerStep .fresh transitions last) :
    last.joinable = sessionOpen (eventsOf transitions) := by
  refine run.invariant_of_past
    (fun past manager => manager.joinable = sessionOpen (eventsOf past)) (fun _ _ _ => True) ?_ rfl
    fun _ _ _ _ => trivial
  intro past manager event later invariant _ stepped
  have events : eventsOf (past ++ [⟨manager, event, later⟩]) = eventsOf past ++ [event] :=
    List.map_append
  rw [joinable_stepped stepped, invariant, events, sessionOpen_append]

/-- For every run from the first call on: the next call assigns to a joinable thread exactly
when it is an accepted `Init` in an open session, and every `Init` that starts begins without
an event of an earlier session. -/
theorem lifecycle_safe_iff (run : Execution managerStep .fresh transitions last) :
    (∀ event, AssignsJoinable last event ↔
      event.starts = true ∧ sessionOpen (eventsOf transitions) = true) ∧
    ∀ transition ∈ transitions, transition.event.starts = true → StartsEmpty transition.after := by
  constructor
  · intro event
    rw [assignsJoinable_iff, joinable_sessionOpen run]
  · exact run.forall_transitions
      (fun sound (_ : True) stepped => (Manager.Sound.step sound stepped).sound)
      (fun sound _ stepped starts => sound.startsEmpty starts stepped) Manager.sound_fresh
      fun _ _ => trivial

theorem lifecycle_safe_sample :
    ∃ transitions last, execute managerStep .fresh
        [.init (some (configSample 1)), .report true 0 [] 1 1 none, .stop, .wait 0, .drain,
          .process (clockSample 0), .process (clockSample 0), .expire 0, .wait 0, .join,
          .init (some (configSample 2))] = some (transitions, last) ∧
      (∀ event, AssignsJoinable last event ↔
        event.starts = true ∧ sessionOpen (eventsOf transitions) = true) ∧
      ∀ transition ∈ transitions, transition.event.starts = true →
        StartsEmpty transition.after := by
  have ran : execute managerStep .fresh
      [.init (some (configSample 1)), .report true 0 [] 1 1 none, .stop, .wait 0, .drain,
        .process (clockSample 0), .process (clockSample 0), .expire 0, .wait 0, .join,
        .init (some (configSample 2))] = some _ := rfl
  exact ⟨_, _, ran, lifecycle_safe_iff (execution_of_execute ran)⟩

/-- A second `Init` while the worker runs. -/
theorem second_init_assignsJoinable :
    ∃ transitions last, execute managerStep .fresh [.init (some (configSample 1))] =
      some (transitions, last) ∧ AssignsJoinable last (.init (some (configSample 1))) :=
  ⟨_, _, rfl, _, rfl, rfl, rfl⟩

end Runs

end Idsm.IdsM
