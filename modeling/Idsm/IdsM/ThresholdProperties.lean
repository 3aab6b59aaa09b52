import Idsm.Foundation.Windows
import Idsm.IdsM.WindowProperties

/-! The threshold's time windows over whole runs of events, ticks and flushes. -/

set_option autoImplicit false

namespace Idsm.IdsM

open Idsm.Foundation

/-- An event or an aggregate that the threshold saw. -/
structure Evaluation where
  timeMs : UInt32
  count : UInt16
  passed : Bool
  deriving DecidableEq, Repr

def Evaluation.time (evaluation : Evaluation) : Nat := evaluation.timeMs.toNat

def FilterRecord.evaluation? : FilterRecord → Option Evaluation
  | .evaluated timeMs count passed => some ⟨timeMs, count, passed⟩
  | _ => none

/-- What the threshold of one event saw in a step. -/
def evaluations (index : Nat) (transition : ManagerTransition) : List Evaluation :=
  (sevRecords index transition.before transition.event).filterMap FilterRecord.evaluation?

def countSum (window : List Evaluation) : Nat :=
  (window.map fun evaluation => evaluation.count.toNat).sum

/-- The law for one evaluation, after those of the past. -/
def PassesByLaw (config : SecurityEventConfig) (past : List Evaluation)
    (evaluation : Evaluation) : Prop :=
  evaluation.passed = true ↔ config.eventThreshold.threshold.toNat ≤
    countSum (currentWindow Evaluation.time config.eventThreshold.intervalMs.toNat
      (past ++ [evaluation]))

/-- The threshold window of the state is up to date when an event comes, its end does not
wrap around, and neither does the sum. -/
structure TimelyThreshold (index : Nat) (manager : Manager) (event : ManagerEvent)
    (sev : SevState) : Prop where
  evaluated : ∀ timeMs count passed,
    .evaluated timeMs count passed ∈ sevRecords index manager event →
    timeMs.toNat < sev.thrWindowStartMs.toNat + sev.config.eventThreshold.intervalMs.toNat ∧
      sev.thrAccumulated.toNat + count.toNat < 2 ^ 32
  closed : ∀ nowMs, event.tick manager = some nowMs → dueAggregate nowMs sev = none →
    sev.thrWindowStartMs + sev.config.eventThreshold.intervalMs ≤ nowMs →
    sev.thrWindowStartMs.toNat + sev.config.eventThreshold.intervalMs.toNat ≤ nowMs.toNat

def CarefulThreshold (index : Nat) (manager : Manager) (event : ManagerEvent) : Prop :=
  ∀ sev, manager.sevs[index]? = some sev → sev.thrWindowOpen = true →
    TimelyThreshold index manager event sev

theorem evaluation?_mem {records : List FilterRecord} {evaluation : Evaluation}
    (member : evaluation ∈ records.filterMap FilterRecord.evaluation?) :
    .evaluated evaluation.timeMs evaluation.count evaluation.passed ∈ records := by
  obtain ⟨record, there, seen⟩ := List.mem_filterMap.mp member
  cases record with
  | evaluated timeMs count passed =>
      obtain rfl := Option.some.inj seen
      exact there
  | aggregated => cases seen
  | released => cases seen

theorem timelyThreshold_iff {index : Nat} {manager : Manager} {event : ManagerEvent}
    {sev : SevState} : TimelyThreshold index manager event sev ↔
      (∀ evaluation ∈ (sevRecords index manager event).filterMap FilterRecord.evaluation?,
        evaluation.timeMs.toNat <
            sev.thrWindowStartMs.toNat + sev.config.eventThreshold.intervalMs.toNat ∧
          sev.thrAccumulated.toNat + evaluation.count.toNat < 2 ^ 32) ∧
      ∀ nowMs ∈ event.tick manager, dueAggregate nowMs sev = none →
        sev.thrWindowStartMs + sev.config.eventThreshold.intervalMs ≤ nowMs →
        sev.thrWindowStartMs.toNat + sev.config.eventThreshold.intervalMs.toNat ≤ nowMs.toNat := by
  constructor
  · rintro ⟨evaluated, closed⟩
    exact ⟨fun evaluation member => evaluated _ _ _ (evaluation?_mem member), closed⟩
  · rintro ⟨evaluated, closed⟩
    exact ⟨fun timeMs count passed member =>
      evaluated ⟨timeMs, count, passed⟩ (List.mem_filterMap.mpr ⟨_, member, rfl⟩), closed⟩

instance (index : Nat) (manager : Manager) (event : ManagerEvent) (sev : SevState) :
    Decidable (TimelyThreshold index manager event sev) :=
  decidable_of_iff _ timelyThreshold_iff.symm

instance (index : Nat) (manager : Manager) (event : ManagerEvent) :
    Decidable (CarefulThreshold index manager event) :=
  inferInstanceAs (Decidable (∀ sev ∈ manager.sevs[index]?, sev.thrWindowOpen = true →
    TimelyThreshold index manager event sev))

/-- The state's window is the current one, or that one is over. -/
structure ThresholdTracks (config : SecurityEventConfig) (seen : List Evaluation)
    (times : List UInt32) (sev : SevState) : Prop where
  configured : sev.config = config
  opened : sev.thrWindowOpen = true → ∃ first rest,
    currentWindow Evaluation.time config.eventThreshold.intervalMs.toNat seen = first :: rest ∧
      first.timeMs = sev.thrWindowStartMs ∧ countSum (first :: rest) = sev.thrAccumulated.toNat
  closed : sev.thrWindowOpen = false → ∀ first ∈ (currentWindow Evaluation.time
      config.eventThreshold.intervalMs.toNat seen).head?,
    ∃ now ∈ times, first.time + config.eventThreshold.intervalMs.toNat ≤ now.toNat

variable {config : SecurityEventConfig} {seen : List Evaluation} {times later : List UInt32}
  {sev after : SevState}

theorem countSum_append (window : List Evaluation) (evaluation : Evaluation) :
    countSum (window ++ [evaluation]) = countSum window + evaluation.count.toNat := by
  rw [countSum, List.map_append, List.sum_append, ← countSum]
  simp

/-- One evaluation keeps the windows together. -/
theorem ThresholdTracks.evaluate {timeMs : UInt32} {count : UInt16} {passed : Bool}
    (tracks : ThresholdTracks config seen times sev)
    (timely : sev.thrWindowOpen = true →
      timeMs.toNat < sev.thrWindowStartMs.toNat + config.eventThreshold.intervalMs.toNat ∧
        sev.thrAccumulated.toNat + count.toNat < 2 ^ 32)
    (clock : ∀ now ∈ times, now ≤ timeMs) :
    ∃ first rest, currentWindow Evaluation.time config.eventThreshold.intervalMs.toNat
        (seen ++ [⟨timeMs, count, passed⟩]) = first :: rest ∧
      first.timeMs = (sev.thresholdWindow.add count timeMs).start ∧
      countSum (first :: rest) = (sev.thresholdWindow.add count timeMs).sum.toNat := by
  rw [currentWindow_append]
  unfold ThresholdWindow.add SevState.thresholdWindow
  cases opened : sev.thrWindowOpen with
  | true =>
      obtain ⟨first, rest, window, start, sum⟩ := tracks.opened opened
      obtain ⟨inside, small⟩ := timely opened
      have joins : Evaluation.time ⟨timeMs, count, passed⟩ <
          first.time + config.eventThreshold.intervalMs.toNat := by
        rw [Evaluation.time, Evaluation.time, start]
        exact inside
      rw [window, joinWindow_of_open joins]
      refine ⟨first, rest ++ [⟨timeMs, count, passed⟩], rfl, start, ?_⟩
      rw [← List.cons_append, countSum_append, sum]
      dsimp only
      rw [if_pos rfl, UInt32.toNat_add, UInt16.toNat_toUInt32, Nat.mod_eq_of_lt small]
  | false =>
      have beyond : ∀ first ∈ (currentWindow Evaluation.time
          config.eventThreshold.intervalMs.toNat seen).head?,
          first.time + config.eventThreshold.intervalMs.toNat ≤
            Evaluation.time ⟨timeMs, count, passed⟩ := by
        intro first there
        obtain ⟨now, read, ended⟩ := tracks.closed opened first there
        exact ended.trans (UInt32.le_iff_toNat_le.mp (clock now read))
      rw [joinWindow_of_over beyond]
      refine ⟨_, [], rfl, rfl, ?_⟩
      simp [countSum]

theorem ThresholdTracks.same (tracks : ThresholdTracks config seen times sev)
    (sameConfig : after.config = sev.config)
    (same : after.thresholdWindow = sev.thresholdWindow) :
    ThresholdTracks config seen (times ++ later) after := by
  have opened : after.thrWindowOpen = sev.thrWindowOpen := congrArg ThresholdWindow.isOpen same
  have start : after.thrWindowStartMs = sev.thrWindowStartMs := congrArg ThresholdWindow.start same
  have sum : after.thrAccumulated = sev.thrAccumulated := congrArg ThresholdWindow.sum same
  refine ⟨sameConfig.trans tracks.configured, ?_, ?_⟩
  · rw [opened, start, sum]
    exact tracks.opened
  · rw [opened]
    intro shut first there
    obtain ⟨now, read, ended⟩ := tracks.closed shut first there
    exact ⟨now, List.mem_append_left _ read, ended⟩

theorem ThresholdTracks.evaluated {timeMs : UInt32} {count : UInt16} {passed : Bool}
    (tracks : ThresholdTracks config seen times sev) (sameConfig : after.config = sev.config)
    (timely : sev.thrWindowOpen = true →
      timeMs.toNat < sev.thrWindowStartMs.toNat + config.eventThreshold.intervalMs.toNat ∧
        sev.thrAccumulated.toNat + count.toNat < 2 ^ 32)
    (clock : ∀ now ∈ times, now ≤ timeMs)
    (moved : after.thresholdWindow = sev.thresholdWindow.add count timeMs) :
    ThresholdTracks config (seen ++ [⟨timeMs, count, passed⟩]) (times ++ later) after := by
  obtain ⟨first, rest, window, start, sum⟩ :=
    @ThresholdTracks.evaluate _ _ _ _ timeMs count passed tracks timely clock
  rw [← moved] at start sum
  refine ⟨sameConfig.trans tracks.configured, fun _ => ⟨first, rest, window, start, sum⟩, ?_⟩
  have opened : after.thrWindowOpen = (sev.thresholdWindow.add count timeMs).isOpen :=
    congrArg ThresholdWindow.isOpen moved
  intro shut
  rw [opened, ThresholdWindow.add] at shut
  split at shut
  next isOpen => exact absurd (isOpen.symm.trans shut) (by simp)
  next => cases shut

/-- By the law an evaluation passes exactly when the code lets it pass. -/
theorem ThresholdTracks.passes {timeMs : UInt32} {count : UInt16}
    (tracks : ThresholdTracks config seen times sev)
    (timely : sev.thrWindowOpen = true →
      timeMs.toNat < sev.thrWindowStartMs.toNat + config.eventThreshold.intervalMs.toNat ∧
        sev.thrAccumulated.toNat + count.toNat < 2 ^ 32)
    (clock : ∀ now ∈ times, now ≤ timeMs) :
    PassesByLaw config seen ⟨timeMs, count, sev.config.eventThreshold.threshold.toUInt32 ≤
      (sev.thresholdWindow.add count timeMs).sum⟩ := by
  obtain ⟨first, rest, window, _, sum⟩ := tracks.evaluate timely clock
  rw [PassesByLaw, window, sum, decide_eq_true_eq, UInt32.le_iff_toNat_le, UInt16.toNat_toUInt32,
    tracks.configured]

/-- The run's invariant for one event. -/
def ThresholdFollowed (index : Nat) (config : SecurityEventConfig)
    (past : List ManagerTransition) (manager : Manager) : Prop :=
  ∃ sev, manager.sevs[index]? = some sev ∧
    ThresholdTracks config (past.flatMap (evaluations index)) (readTimes past) sev

/-- What a step of a run may be: no restart of the manager, a clock that does not go back,
and windows that are looked at in time. -/
structure ThresholdAllowed (index : Nat) (past : List ManagerTransition) (manager : Manager)
    (event : ManagerEvent) : Prop where
  keeps : event.keepsSevs = true
  clock : ∀ earlier ∈ readTimes past, ∀ now ∈ event.times, earlier ≤ now
  careful : CarefulThreshold index manager event

theorem threshold_step {index : Nat} {past : List ManagerTransition} {manager next : Manager}
    {event : ManagerEvent} (enabled : config.eventThreshold.threshold ≠ 0)
    (followed : ThresholdFollowed index config past manager)
    (allowed : ThresholdAllowed index past manager event)
    (stepped : managerStep manager event = some next) :
    ThresholdFollowed index config (past ++ [⟨manager, event, next⟩]) next ∧
      ∀ evaluation ∈ evaluations index ⟨manager, event, next⟩,
        PassesByLaw config (past.flatMap (evaluations index)) evaluation := by
  obtain ⟨sev, here, tracks⟩ := followed
  obtain ⟨after, found, sameConfig, step⟩ := sev_stepped here allowed.keeps stepped
  have evaluated : ∀ record ∈ sevRecords index manager event, ∀ timeMs count passed,
      record = .evaluated timeMs count passed →
      (sev.thrWindowOpen = true →
        timeMs.toNat < sev.thrWindowStartMs.toNat + config.eventThreshold.intervalMs.toNat ∧
          sev.thrAccumulated.toNat + count.toNat < 2 ^ 32) ∧
        ∀ now ∈ readTimes past, now ≤ timeMs := by
    rintro record member timeMs count passed rfl
    refine ⟨fun opened => ?_, fun now read => ?_⟩
    · have timely := (allowed.careful sev here opened).evaluated timeMs count passed member
      rwa [tracks.configured] at timely
    · exact allowed.clock now read timeMs (record_mem_times member rfl)
  have threshold : sev.config.eventThreshold.threshold ≠ 0 := by
    rw [tracks.configured]
    exact enabled
  rw [ThresholdFollowed, List.flatMap_append, List.flatMap_singleton, readTimes,
    List.flatMap_append, List.flatMap_singleton, ← readTimes]
  have seen : evaluations index ⟨manager, event, next⟩ =
      (sevRecords index manager event).filterMap FilterRecord.evaluation? := rfl
  rw [seen]
  generalize drawn : sevRecords index manager event = records at step evaluated
  cases step with
  | quiet aggregation same =>
      refine ⟨⟨after, found, ?_⟩, by simp⟩
      rw [List.filterMap_nil, List.append_nil]
      exact tracks.same sameConfig same
  | aggregated _ _ same =>
      refine ⟨⟨after, found, ?_⟩, by simp [FilterRecord.evaluation?]⟩
      exact (List.append_nil (past.flatMap _)).symm ▸ tracks.same sameConfig same
  | @evaluated timeMs count _ moved =>
      obtain ⟨timely, clock⟩ := evaluated _ (List.mem_singleton_self _) _ _ _ rfl
      refine ⟨⟨after, found, tracks.evaluated sameConfig timely clock (moved threshold)⟩, ?_⟩
      intro evaluation member
      obtain rfl := List.mem_singleton.mp member
      exact tracks.passes timely clock
  | @released timeMs staged flushed _ _ _ moved =>
      obtain ⟨timely, clock⟩ :=
        evaluated _ (List.mem_cons_of_mem _ (List.mem_singleton_self _)) _ _ _ rfl
      refine ⟨⟨after, found, tracks.evaluated sameConfig timely clock (moved threshold)⟩, ?_⟩
      intro evaluation member
      obtain rfl := List.mem_singleton.mp member
      exact tracks.passes timely clock
  | @closed nowMs ticks waits opened beyond _ shut =>
      refine ⟨⟨after, found, ?_⟩, by simp⟩
      rw [List.filterMap_nil, List.append_nil]
      refine ⟨sameConfig.trans tracks.configured, fun isOpen => ?_, fun _ first there => ?_⟩
      · exact absurd (isOpen.symm.trans shut) (by simp)
      · obtain ⟨head, rest, window, start, _⟩ := tracks.opened opened
        rw [window] at there
        obtain rfl : head = first := Option.some.inj there
        have ended := (allowed.careful sev here opened).closed nowMs ticks waits beyond
        rw [tracks.configured] at ended
        refine ⟨nowMs, List.mem_append_right _ (tick_mem_times ticks), ?_⟩
        rw [Evaluation.time, start]
        exact ended

/-- [SWS_IdsM_01061-01065] in every run whose clock does not go back and that looks at the
window of the event in time: an evaluation passes exactly when the counts of the window it
belongs to reach the threshold. -/
theorem threshold_law_of_careful {start last : Manager} {transitions : List ManagerTransition}
    {index : Nat} {sev : SevState} (run : Execution managerStep start transitions last)
    (here : start.sevs[index]? = some sev) (shut : sev.thrWindowOpen = false)
    (enabled : sev.config.eventThreshold.threshold ≠ 0) (clock : ClockRuns transitions)
    (keeps : ∀ transition ∈ transitions, transition.event.keepsSevs = true)
    (careful : ∀ transition ∈ transitions,
      CarefulThreshold index transition.before transition.event) :
    ∀ past transition rest, transitions = past ++ transition :: rest →
      ∀ evaluation ∈ evaluations index transition,
        PassesByLaw sev.config (past.flatMap (evaluations index)) evaluation := by
  refine run.forall_past (ThresholdAllowed index)
    (fun followed allowed stepped => (threshold_step enabled followed allowed stepped).1)
    (fun followed allowed stepped => (threshold_step enabled followed allowed stepped).2)
    ⟨sev, here, rfl, ?_, ?_⟩ ?_
  · intro opened
    exact absurd (opened.symm.trans shut) (by simp)
  · intro _ first there
    cases there
  · intro past transition rest split
    have member : transition ∈ transitions := by simp [split]
    exact ⟨keeps transition member, clock.after split, careful transition member⟩

theorem threshold_law_sample :
    ∃ transitions last, execute managerStep (windowStart 0 2 20) (batchOfTwo 5 24) =
      some (transitions, last) ∧ last.tally.stats.eventsQualified = 1 ∧
      ∀ past transition rest, transitions = past ++ transition :: rest →
        ∀ evaluation ∈ evaluations 0 transition,
          PassesByLaw ⟨0x8001, 0, .low, 2, none, 0, 0, ⟨2, 20⟩, true, true⟩
            (past.flatMap (evaluations 0)) evaluation := by
  have ran : execute managerStep (windowStart 0 2 20) (batchOfTwo 5 24) = some _ := rfl
  have law := @threshold_law_of_careful _ _ _ 0 _ (execution_of_execute ran) rfl rfl
  exact ⟨_, _, ran, rfl, law (by decide) (by decide) (by decide) (by decide)⟩

/-- The second event comes when the window of the first one is over. -/
theorem threshold_merges_windows :
    ∃ transitions last past transition rest evaluation,
      execute managerStep (windowStart 0 2 20) (batchOfTwo 0 20) = some (transitions, last) ∧
      ClockRuns transitions ∧ transitions = past ++ transition :: rest ∧
      evaluation ∈ evaluations 0 transition ∧
      ¬PassesByLaw ⟨0x8001, 0, .low, 2, none, 0, 0, ⟨2, 20⟩, true, true⟩
        (past.flatMap (evaluations 0)) evaluation := by
  have ran : execute managerStep (windowStart 0 2 20) (batchOfTwo 0 20) = some _ := rfl
  refine ⟨_, _, [_, _, _, _, _], _, [], ⟨20, 1, true⟩, ran, by decide, rfl, by decide, ?_⟩
  unfold PassesByLaw
  decide

end Idsm.IdsM
