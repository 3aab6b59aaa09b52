import Idsm.Foundation.Execution
import Idsm.IdsM.FilterProperties

/-! What every step of the manager does to the windows of one event, and the clock of a
run. -/

set_option autoImplicit false

namespace Idsm.IdsM

open Idsm.Foundation
open Idsm.IdsRm (OwnedQSEv)

section Records

structure ThresholdWindow where
  isOpen : Bool
  start : UInt32
  sum : UInt32
  deriving DecidableEq, Repr

def SevState.thresholdWindow (sev : SevState) : ThresholdWindow :=
  ⟨sev.thrWindowOpen, sev.thrWindowStartMs, sev.thrAccumulated⟩

def ThresholdWindow.add (window : ThresholdWindow) (count : UInt16) (nowMs : UInt32) :
    ThresholdWindow :=
  if window.isOpen then { window with sum := window.sum + count.toUInt32 }
  else ⟨true, nowMs, 0 + count.toUInt32⟩

structure AggregationWindow where
  pending : Option StagedQSEv
  start : UInt32
  deriving DecidableEq, Repr

def SevState.aggregationWindow (sev : SevState) : AggregationWindow :=
  ⟨sev.aggPending, sev.aggWindowStartMs⟩

def AggregationWindow.add (window : AggregationWindow) (qsev : OwnedQSEv) (nowMs : UInt32) :
    AggregationWindow :=
  match window.pending with
  | none => ⟨some ⟨qsev, 0⟩, nowMs⟩
  | some staged =>
      ⟨some ⟨{ staged.qsev with count := mergedCount staged.qsev.count qsev.count },
        staged.merged + 1⟩, window.start⟩

/-- What one event's filters did in a step. -/
inductive FilterRecord where
  | aggregated (timeMs : UInt32) (qsev : OwnedQSEv)
  | released (qsev : OwnedQSEv) (flushed : Bool)
  | evaluated (timeMs : UInt32) (count : UInt16) (passed : Bool)
  deriving DecidableEq, Repr

/-- The filters that an event reaches. -/
def chainRecords (manager : Manager) (clock : Clock) (event : OwnedSEv) (sev : SevState) :
    List FilterRecord :=
  let sev := sev.violated
  let qsev := buildQsev manager.idsmInstanceId sev event clock.internal
  if sev.reportingMode = .off ∨ sev.reportingMode.bypasses = true then []
  else if isBlockedByState manager.blockState sev.config then []
  else
    match passForwardEveryNth sev qsev.count with
    | (false, _) => []
    | (true, sev) =>
        match passAggregation sev qsev clock.stagedMs with
        | (false, _) => [.aggregated clock.stagedMs qsev]
        | (true, sev) =>
            [.evaluated clock.nowMs qsev.count (passThreshold sev qsev.count clock.nowMs).1]

/-- An aggregate leaves its window and goes on to the threshold. -/
def releaseRecords (nowMs : UInt32) (flushed : Bool) (sev : SevState) :
    Option StagedQSEv → List FilterRecord
  | none => []
  | some staged =>
      [.released staged.qsev flushed,
        .evaluated nowMs staged.qsev.count (passThreshold sev staged.qsev.count nowMs).1]

/-- The worker looks at the windows. -/
def ManagerEvent.tick (manager : Manager) : ManagerEvent → Option UInt32
  | .wait nowMs => if manager.incoming = [] then some nowMs else none
  | .expire nowMs => some nowMs
  | _ => none

def sevRecords (index : Nat) (manager : Manager) (event : ManagerEvent) : List FilterRecord :=
  match manager.sevs[index]? with
  | none => []
  | some sev =>
      match event with
      | .process clock =>
          match manager.batch with
          | [] => []
          | queued :: _ =>
              if queued.securityEventId.toNat = index then chainRecords manager clock queued sev
              else []
      | .flushEvents sevId nowMs =>
          if sevId.toNat = index then releaseRecords nowMs true sev sev.aggPending else []
      | event =>
          match event.tick manager with
          | none => []
          | some nowMs => releaseRecords nowMs false sev (dueAggregate nowMs sev)

/-- The step of one event's windows. -/
inductive SevStep (manager : Manager) (event : ManagerEvent) (before after : SevState) :
    List FilterRecord → Prop where
  | quiet (aggregation : after.aggregationWindow = before.aggregationWindow)
      (threshold : after.thresholdWindow = before.thresholdWindow) :
      SevStep manager event before after []
  | aggregated {timeMs : UInt32} {qsev : OwnedQSEv}
      (enabled : before.config.aggregationIntervalMs ≠ 0)
      (aggregation : after.aggregationWindow = before.aggregationWindow.add qsev timeMs)
      (threshold : after.thresholdWindow = before.thresholdWindow) :
      SevStep manager event before after [.aggregated timeMs qsev]
  | evaluated {timeMs : UInt32} {count : UInt16}
      (aggregation : after.aggregationWindow = before.aggregationWindow)
      (threshold : before.config.eventThreshold.threshold ≠ 0 →
        after.thresholdWindow = before.thresholdWindow.add count timeMs) :
      SevStep manager event before after [.evaluated timeMs count
        (before.config.eventThreshold.threshold.toUInt32 ≤
          (before.thresholdWindow.add count timeMs).sum)]
  | released {timeMs : UInt32} {staged : StagedQSEv} {flushed : Bool}
      (pending : before.aggPending = some staged)
      (due : flushed = true ∨ dueAggregate timeMs before = some staged ∧
        event.tick manager = some timeMs)
      (aggregation : after.aggPending = none)
      (threshold : before.config.eventThreshold.threshold ≠ 0 →
        after.thresholdWindow = before.thresholdWindow.add staged.qsev.count timeMs) :
      SevStep manager event before after [.released staged.qsev flushed,
        .evaluated timeMs staged.qsev.count
          (before.config.eventThreshold.threshold.toUInt32 ≤
            (before.thresholdWindow.add staged.qsev.count timeMs).sum)]
  | closed {timeMs : UInt32} (ticks : event.tick manager = some timeMs)
      (waits : dueAggregate timeMs before = none) (opened : before.thrWindowOpen = true)
      (beyond : before.thrWindowStartMs + before.config.eventThreshold.intervalMs ≤ timeMs)
      (aggregation : after.aggregationWindow = before.aggregationWindow)
      (threshold : after.thrWindowOpen = false) : SevStep manager event before after []

end Records

section Steps

variable {manager later : Manager} {event : ManagerEvent} {sinks : Sinks} {sev : SevState}
  {tally : Tally} {nowMs : UInt32} {count : UInt16}

theorem passThreshold_fst (sev : SevState) (count : UInt16) (nowMs : UInt32) :
    (passThreshold sev count nowMs).1 = decide (sev.config.eventThreshold.threshold.toUInt32 ≤
      (sev.thresholdWindow.add count nowMs).sum) := by
  unfold passThreshold
  dsimp only
  split
  next disabled =>
    rw [disabled]
    exact (decide_eq_true (UInt32.le_iff_toNat_le.mpr (Nat.zero_le _))).symm
  next =>
    unfold ThresholdWindow.add SevState.thresholdWindow
    cases sev.thrWindowOpen with
    | true => rfl
    | false => rfl

theorem passThreshold_window (enabled : sev.config.eventThreshold.threshold ≠ 0) :
    (passThreshold sev count nowMs).2.thresholdWindow = sev.thresholdWindow.add count nowMs := by
  unfold passThreshold
  dsimp only
  rw [if_neg enabled]
  unfold ThresholdWindow.add SevState.thresholdWindow
  cases opened : sev.thrWindowOpen with
  | true => simp [opened]
  | false => simp

theorem thresholdWindow_of_same {after : SevState} (same : Stage.threshold.Same sev after) :
    after.thresholdWindow = sev.thresholdWindow := by
  obtain ⟨sum, start, opened⟩ := same
  rw [SevState.thresholdWindow, SevState.thresholdWindow, sum, start, opened]

theorem aggregationWindow_of_same {after : SevState} (same : Stage.aggregation.Same sev after) :
    after.aggregationWindow = sev.aggregationWindow := by
  obtain ⟨pending, _, start⟩ := same
  rw [SevState.aggregationWindow, SevState.aggregationWindow, pending, start]

theorem passAggregation_window (qsev : OwnedQSEv) (nowMs : UInt32)
    (enabled : sev.config.aggregationIntervalMs ≠ 0) :
    (passAggregation sev qsev nowMs).1 = false ∧
      (passAggregation sev qsev nowMs).2.aggregationWindow =
        sev.aggregationWindow.add qsev nowMs := by
  unfold passAggregation
  rw [if_neg enabled]
  unfold AggregationWindow.add SevState.aggregationWindow
  cases pending : sev.aggPending with
  | none => exact ⟨rfl, rfl⟩
  | some staged => exact ⟨rfl, rfl⟩

theorem passAggregation_disabled {qsev : OwnedQSEv} {nowMs : UInt32}
    (disabled : sev.config.aggregationIntervalMs = 0) :
    passAggregation sev qsev nowMs = (true, sev) := if_pos disabled

/-- The state after an aggregate left. -/
def releasedSev (nowMs : UInt32) (sev : SevState) (staged : StagedQSEv) : SevState :=
  (passThreshold { sev with aggPending := none, aggHasContext := false } staged.qsev.count nowMs).2

theorem release_fst (staged : StagedQSEv) :
    (release sinks sev staged nowMs tally).1 = releasedSev nowMs sev staged := by
  unfold release releasedSev
  dsimp only
  split <;> rfl

theorem releasedSev_step {staged : StagedQSEv} {flushed : Bool}
    (pending : sev.aggPending = some staged)
    (due : flushed = true ∨ dueAggregate nowMs sev = some staged ∧
      event.tick manager = some nowMs) :
    (releasedSev nowMs sev staged).config = sev.config ∧
      SevStep manager event sev (releasedSev nowMs sev staged)
        (releaseRecords nowMs flushed sev (some staged)) := by
  obtain ⟨config, aggregation⟩ := passThreshold_keeps
    { sev with aggPending := none, aggHasContext := false } staged.qsev.count nowMs
  refine ⟨config, ?_⟩
  rw [releaseRecords, passThreshold_fst]
  exact .released pending due aggregation.1 fun enabled =>
    @passThreshold_window { sev with aggPending := none, aggHasContext := false } nowMs
      staged.qsev.count enabled

/-- The state after the worker looked at its windows. -/
def expiredSev (nowMs : UInt32) (sev : SevState) : SevState :=
  match dueAggregate nowMs sev with
  | some staged => releasedSev nowMs sev staged
  | none => (expireThreshold nowMs sev 0).1

theorem expireThreshold_fst (nextDeadline other : UInt32) :
    (expireThreshold nowMs sev nextDeadline).1 = (expireThreshold nowMs sev other).1 := by
  unfold expireThreshold
  dsimp only
  split
  · split <;> rfl
  · rfl

theorem expireWindow_fst (nextDeadline : UInt32) :
    (expireWindow sinks nowMs sev tally nextDeadline).1 = expiredSev nowMs sev := by
  unfold expireWindow expiredSev
  cases dueAggregate nowMs sev with
  | some staged => exact release_fst _
  | none => exact expireThreshold_fst _ _

theorem expireWindows_fst (sevs : List SevState) (nextDeadline : UInt32) :
    (expireWindows sinks nowMs sevs tally nextDeadline).1 = sevs.map (expiredSev nowMs) := by
  induction sevs generalizing tally nextDeadline with
  | nil => rfl
  | cons sev rest ih =>
      rw [expireWindows, List.map_cons]
      exact congrArg₂ List.cons (expireWindow_fst _) (ih _)

theorem dueAggregate_pending {staged : StagedQSEv} (due : dueAggregate nowMs sev = some staged) :
    sev.aggPending = some staged := by
  unfold dueAggregate at due
  split at due
  · exact due
  · cases due

theorem expiredSev_step (ticks : event.tick manager = some nowMs) :
    (expiredSev nowMs sev).config = sev.config ∧
      SevStep manager event sev (expiredSev nowMs sev)
        (releaseRecords nowMs false sev (dueAggregate nowMs sev)) := by
  unfold expiredSev
  cases due : dueAggregate nowMs sev with
  | some staged => exact releasedSev_step (dueAggregate_pending due) (.inr ⟨due, ticks⟩)
  | none =>
      rw [releaseRecords]
      unfold expireThreshold
      dsimp only
      split
      next opened =>
        split
        next beyond => exact ⟨rfl, .closed ticks due opened beyond rfl rfl⟩
        next => exact ⟨rfl, .quiet rfl rfl⟩
      next => exact ⟨rfl, .quiet rfl rfl⟩

theorem filterChain_step {blockState : UInt8} {qsev : OwnedQSEv} {clock : Clock}
    (records : List FilterRecord)
    (drawn : records =
      if isBlockedByState blockState sev.config then []
      else
        match passForwardEveryNth sev qsev.count with
        | (false, _) => []
        | (true, sev) =>
            match passAggregation sev qsev clock.stagedMs with
            | (false, _) => [.aggregated clock.stagedMs qsev]
            | (true, sev) =>
                [.evaluated clock.nowMs qsev.count (passThreshold sev qsev.count clock.nowMs).1]) :
    (filterChain sinks blockState sev qsev clock tally).1.config = sev.config ∧
      SevStep manager event sev (filterChain sinks blockState sev qsev clock tally).1 records := by
  have sampled := passForwardEveryNth_keeps sev qsev.count
  subst drawn
  unfold filterChain
  dsimp only
  split
  · exact ⟨rfl, .quiet rfl rfl⟩
  · generalize passForwardEveryNth sev qsev.count = stage at *
    obtain ⟨passes, after⟩ := stage
    cases passes with
    | false =>
      exact ⟨sampled.1, .quiet (aggregationWindow_of_same sampled.2.1)
        (thresholdWindow_of_same sampled.2.2)⟩
    | true =>
      obtain ⟨config, aggregation, threshold⟩ := sampled
      have aggregation := aggregationWindow_of_same aggregation
      have threshold := thresholdWindow_of_same threshold
      dsimp only at config aggregation threshold ⊢
      by_cases disabled : after.config.aggregationIntervalMs = 0
      · rw [passAggregation_disabled disabled]
        dsimp only
        have counted := passThreshold_keeps after qsev.count clock.nowMs
        have passed := passThreshold_fst after qsev.count clock.nowMs
        have window := @passThreshold_window after clock.nowMs qsev.count
        rw [config, threshold] at passed window
        rw [passed]
        have step : SevStep manager event sev (passThreshold after qsev.count clock.nowMs).2
            [.evaluated clock.nowMs qsev.count
              (sev.config.eventThreshold.threshold.toUInt32 ≤
                (sev.thresholdWindow.add qsev.count clock.nowMs).sum)] :=
          .evaluated ((aggregationWindow_of_same counted.2).trans aggregation) window
        split
        next last _ dropped =>
          rw [dropped] at counted step
          exact ⟨counted.1.trans config, step⟩
        next last _ allowed =>
          rw [allowed] at counted step
          exact ⟨counted.1.trans config, step⟩
      · obtain ⟨absorbed, window⟩ := passAggregation_window qsev clock.stagedMs disabled
        have kept := passAggregation_keeps after qsev clock.stagedMs
        generalize passAggregation after qsev clock.stagedMs = result at *
        obtain ⟨passes, last⟩ := result
        dsimp only at absorbed window kept
        subst absorbed
        refine ⟨kept.1.trans config, .aggregated (config ▸ disabled) ?_ ?_⟩
        · rw [← aggregation]
          exact window
        · rw [← threshold]
          exact thresholdWindow_of_same kept.2

theorem SevStep.of_violated {after : SevState} {records : List FilterRecord}
    (step : SevStep manager event sev.violated after records) :
    SevStep manager event sev after records := by
  cases step with
  | quiet aggregation threshold => exact .quiet aggregation threshold
  | aggregated enabled aggregation threshold => exact .aggregated enabled aggregation threshold
  | evaluated aggregation threshold => exact .evaluated aggregation threshold
  | released pending due aggregation threshold => exact .released pending due aggregation threshold
  | closed ticks waits opened beyond aggregation threshold =>
      exact .closed ticks waits opened beyond aggregation threshold

theorem processSev_step {clock : Clock} {queued : OwnedSEv} :
    (processSev manager.sinks manager.idsmInstanceId manager.blockState clock queued sev tally).1.config =
        sev.config ∧
      SevStep manager event sev
        (processSev manager.sinks manager.idsmInstanceId manager.blockState clock queued sev tally).1
        (chainRecords manager clock queued sev) := by
  unfold processSev chainRecords
  rw [← SevState.violated]
  dsimp only
  by_cases off : sev.reportingMode = .off
  · rw [if_pos off, if_pos (.inl off)]
    exact ⟨rfl, .quiet rfl rfl⟩
  · rw [if_neg off]
    by_cases bypasses : sev.violated.reportingMode.bypasses = true
    · rw [if_pos bypasses, if_pos (.inr bypasses)]
      exact ⟨rfl, .quiet rfl rfl⟩
    · rw [if_neg bypasses, if_neg fun either => either.elim off bypasses]
      have entered := @filterChain_step manager event manager.sinks sev.violated tally
        manager.blockState (buildQsev manager.idsmInstanceId sev.violated queued clock.internal)
        clock _ rfl
      exact ⟨entered.1, entered.2.of_violated⟩

/-- The windows and the configuration of one state, whatever else changed. -/
structure SameWindows (before after : SevState) : Prop where
  config : after.config = before.config
  aggregation : after.aggregationWindow = before.aggregationWindow
  threshold : after.thresholdWindow = before.thresholdWindow

theorem setSev_windows {index : Nat} {before state replaced : SevState} {sevId : UInt16}
    (here : manager.sevs[index]? = some before)
    (there : manager.sevs[sevId.toNat]? = some replaced) (same : SameWindows replaced state) :
    ∃ after, (manager.setSev sevId state).sevs[index]? = some after ∧ SameWindows before after := by
  by_cases place : index = sevId.toNat
  · subst place
    obtain rfl := Option.some.inj (there.symm.trans here)
    exact ⟨state, setSev_same here, same⟩
  · exact ⟨before, (setSev_other place).trans here, rfl, rfl, rfl⟩

theorem leaveQueues_windows {index : Nat} {before : SevState} (incoming : List OwnedSEv)
    (sevs : List SevState) (here : sevs[index]? = some before) :
    ∃ after, (incoming.foldl Manager.leaveQueue sevs)[index]? = some after ∧
      SameWindows before after := by
  induction incoming generalizing sevs before with
  | nil => exact ⟨before, here, rfl, rfl, rfl⟩
  | cons queued rest ih =>
      rw [List.foldl_cons]
      have one : ∃ after, (Manager.leaveQueue sevs queued)[index]? = some after ∧
          SameWindows before after := by
        unfold Manager.leaveQueue
        cases there : sevs[queued.securityEventId.toNat]? with
        | none => exact ⟨before, here, rfl, rfl, rfl⟩
        | some state =>
            dsimp only
            split
            · by_cases place : index = queued.securityEventId.toNat
              · subst place
                obtain rfl := Option.some.inj (there.symm.trans here)
                obtain ⟨inside, _⟩ := List.getElem?_eq_some_iff.mp here
                exact ⟨_, List.getElem?_set_self inside, rfl, rfl, rfl⟩
              · exact ⟨before, (List.getElem?_set_ne (Ne.symm place)).trans here, rfl, rfl, rfl⟩
            · exact ⟨before, here, rfl, rfl, rfl⟩
      obtain ⟨middle, found, same⟩ := one
      obtain ⟨after, last, kept⟩ := ih _ found
      exact ⟨after, last, kept.config.trans same.config, kept.aggregation.trans same.aggregation,
        kept.threshold.trans same.threshold⟩

/-- The events that start or end the manager replace all states. -/
def ManagerEvent.keepsSevs : ManagerEvent → Bool
  | .init _ => false
  | .join => false
  | _ => true

/-- What a step did to one event's state. -/
def Stepped (manager : Manager) (event : ManagerEvent) (index : Nat) (before : SevState)
    (later : Manager) (records : List FilterRecord) : Prop :=
  ∃ after, later.sevs[index]? = some after ∧ after.config = before.config ∧
    SevStep manager event before after records

theorem Stepped.of_windows {index : Nat} {before : SevState}
    (same : ∃ after, later.sevs[index]? = some after ∧ SameWindows before after) :
    Stepped manager event index before later [] := by
  obtain ⟨after, found, windows⟩ := same
  exact ⟨after, found, windows.config, .quiet windows.aggregation windows.threshold⟩

theorem Stepped.of_same {index : Nat} {before : SevState}
    (found : later.sevs[index]? = some before) : Stepped manager event index before later [] :=
  .of_windows ⟨before, found, rfl, rfl, rfl⟩

theorem processEvent_stepped {index : Nat} {before : SevState} {clock : Clock} {queued : OwnedSEv}
    (here : manager.sevs[index]? = some before) :
    Stepped manager event index before (manager.processEvent clock queued)
      (if queued.securityEventId.toNat = index then chainRecords manager clock queued before
        else []) := by
  by_cases place : queued.securityEventId.toNat = index
  · subst place
    rw [if_pos rfl]
    unfold Manager.processEvent
    rw [here]
    obtain ⟨config, step⟩ := @processSev_step manager event before manager.tally clock queued
    exact ⟨_, setSev_same here, config, step⟩
  · rw [if_neg place]
    exact .of_same ((processEvent_other (Ne.symm place)).trans here)

theorem flushEvents_stepped {index : Nat} {before : SevState} {sevId : UInt16}
    (here : manager.sevs[index]? = some before) :
    Stepped manager event index before (manager.flushEvents sevId nowMs).2
      (if sevId.toNat = index then releaseRecords nowMs true before before.aggPending else []) := by
  by_cases place : sevId.toNat = index
  · subst place
    rw [if_pos rfl]
    unfold Manager.flushEvents
    rw [here]
    dsimp only
    cases pending : before.aggPending with
    | none => exact .of_same here
    | some staged =>
        obtain ⟨config, step⟩ := @releasedSev_step manager event before nowMs staged true pending
          (.inl rfl)
        rw [← @release_fst manager.sinks before manager.tally nowMs staged] at config step
        exact ⟨_, setSev_same here, config, step⟩
  · rw [if_neg place]
    exact .of_same ((flushEvents_other (Ne.symm place)).trans here)

theorem expire_stepped {index : Nat} {before : SevState}
    (here : manager.sevs[index]? = some before) (ticks : event.tick manager = some nowMs) :
    Stepped manager event index before (manager.expire nowMs).2
      (releaseRecords nowMs false before (dueAggregate nowMs before)) := by
  obtain ⟨config, step⟩ := @expiredSev_step manager event before nowMs ticks
  refine ⟨expiredSev nowMs before, ?_, config, step⟩
  show (expireWindows manager.sinks nowMs manager.sevs manager.tally 0).1[index]? = _
  rw [expireWindows_fst, List.getElem?_map, here]
  rfl

/-- Every step of the manager, seen from one event. -/
theorem sev_stepped {index : Nat} {before : SevState} (here : manager.sevs[index]? = some before)
    (keeps : event.keepsSevs = true) (stepped : managerStep manager event = some later) :
    Stepped manager event index before later (sevRecords index manager event) := by
  unfold sevRecords
  rw [here]
  cases event with
  | init config => cases keeps
  | join => cases keeps
  | stop =>
      obtain rfl := Option.some.inj stepped
      exact .of_same here
  | report checked sevId contextData contextVersion count timestamp =>
      rw [managerStep] at stepped
      split at stepped
      next =>
        obtain rfl := Option.some.inj stepped
        unfold Manager.report
        split
        next => exact .of_same here
        next state there => exact .of_windows (setSev_windows here there ⟨rfl, rfl, rfl⟩)
      next =>
        obtain rfl := Option.some.inj stepped
        exact .of_same here
  | setReportingMode sevId mode =>
      obtain rfl := Option.some.inj stepped
      unfold Manager.setReportingMode
      split
      next mode state _ there => exact .of_windows (setSev_windows here there ⟨rfl, rfl, rfl⟩)
      next => exact .of_same here
  | blockStateChanged state =>
      obtain rfl := Option.some.inj stepped
      exact .of_same here
  | resetDetectionStatus sevId =>
      obtain rfl := Option.some.inj stepped
      unfold Manager.resetDetectionStatus
      split
      next => exact .of_same here
      next state there => exact .of_windows (setSev_windows here there ⟨rfl, rfl, rfl⟩)
  | setDemReportCallback present =>
      obtain rfl := Option.some.inj stepped
      exact .of_same here
  | registerIdsrSink present =>
      obtain rfl := Option.some.inj stepped
      exact .of_same here
  | flushEvents sevId nowMs =>
      obtain rfl := Option.some.inj stepped
      exact flushEvents_stepped here
  | wait nowMs =>
      rw [managerStep] at stepped
      split at stepped
      next =>
        obtain rfl := Option.some.inj stepped
        by_cases empty : manager.incoming = []
        · have ticks : (ManagerEvent.wait nowMs).tick manager = some nowMs := if_pos empty
          dsimp only
          rw [if_pos empty, ticks]
          exact expire_stepped here ticks
        · have ticks : (ManagerEvent.wait nowMs).tick manager = none := if_neg empty
          dsimp only
          rw [if_neg empty, ticks]
          exact .of_same here
      next => cases stepped
  | drain =>
      rw [managerStep] at stepped
      split at stepped
      next =>
        obtain rfl := Option.some.inj stepped
        exact .of_windows (leaveQueues_windows manager.incoming manager.sevs here)
      next => cases stepped
  | process clock =>
      rw [managerStep] at stepped
      split at stepped
      next =>
        cases queue : manager.batch with
        | nil =>
            rw [queue] at stepped
            obtain rfl := Option.some.inj stepped
            exact .of_same here
        | cons queued rest =>
            rw [queue] at stepped
            obtain rfl := Option.some.inj stepped
            exact processEvent_stepped here
      next => cases stepped
  | expire nowMs =>
      rw [managerStep] at stepped
      split at stepped
      next =>
        obtain rfl := Option.some.inj stepped
        exact expire_stepped here rfl
      next => cases stepped

end Steps

section Clocks

abbrev ManagerTransition := Transition Manager ManagerEvent

/-- The milliseconds that a step reads. -/
def ManagerEvent.times : ManagerEvent → List UInt32
  | .process clock => [clock.nowMs, clock.stagedMs]
  | .flushEvents _ nowMs => [nowMs]
  | .wait nowMs => [nowMs]
  | .expire nowMs => [nowMs]
  | _ => []

def readTimes (past : List ManagerTransition) : List UInt32 :=
  past.flatMap fun transition => transition.event.times

/-- The clock never goes back. -/
def ClockRuns (transitions : List ManagerTransition) : Prop :=
  (readTimes transitions).Pairwise (· ≤ ·)

instance (transitions : List ManagerTransition) : Decidable (ClockRuns transitions) :=
  inferInstanceAs (Decidable (List.Pairwise _ _))

theorem ClockRuns.after {transitions past rest : List ManagerTransition}
    {transition : ManagerTransition} (runs : ClockRuns transitions)
    (split : transitions = past ++ transition :: rest) :
    ∀ earlier ∈ readTimes past, ∀ now ∈ transition.event.times, earlier ≤ now := by
  intro earlier before now here
  rw [ClockRuns, split, readTimes, List.flatMap_append, List.pairwise_append] at runs
  exact runs.2.2 earlier before now (by
    rw [List.flatMap_cons]
    exact List.mem_append_left _ here)

theorem tick_mem_times {manager : Manager} {event : ManagerEvent} {nowMs : UInt32}
    (ticks : event.tick manager = some nowMs) : nowMs ∈ event.times := by
  cases event with
  | wait atMs =>
      rw [ManagerEvent.tick] at ticks
      split at ticks
      · obtain rfl := Option.some.inj ticks
        exact List.mem_singleton_self _
      · cases ticks
  | expire atMs =>
      obtain rfl := Option.some.inj ticks
      exact List.mem_singleton_self _
  | _ => cases ticks

/-- The time at which a filter saw something. -/
def FilterRecord.time : FilterRecord → Option UInt32
  | .aggregated timeMs _ => some timeMs
  | .released _ _ => none
  | .evaluated timeMs _ _ => some timeMs

theorem releaseRecords_time {nowMs timeMs : UInt32} {flushed : Bool} {sev : SevState}
    {pending : Option StagedQSEv} {record : FilterRecord}
    (member : record ∈ releaseRecords nowMs flushed sev pending)
    (seen : record.time = some timeMs) : timeMs = nowMs := by
  cases pending with
  | none => exact absurd member (by simp [releaseRecords])
  | some staged =>
      rw [releaseRecords, List.mem_cons, List.mem_singleton] at member
      rcases member with rfl | rfl
      · cases seen
      · exact (Option.some.inj seen).symm

theorem chainRecords_time {manager : Manager} {clock : Clock} {queued : OwnedSEv} {sev : SevState}
    {timeMs : UInt32} {record : FilterRecord} (member : record ∈ chainRecords manager clock queued sev)
    (seen : record.time = some timeMs) : timeMs = clock.nowMs ∨ timeMs = clock.stagedMs := by
  unfold chainRecords at member
  dsimp only at member
  split at member
  · cases member
  · split at member
    · cases member
    · split at member
      · cases member
      · split at member
        · obtain rfl := List.mem_singleton.mp member
          exact .inr (Option.some.inj seen).symm
        · obtain rfl := List.mem_singleton.mp member
          exact .inl (Option.some.inj seen).symm

theorem record_mem_times {manager : Manager} {event : ManagerEvent} {index : Nat}
    {timeMs : UInt32} {record : FilterRecord} (member : record ∈ sevRecords index manager event)
    (seen : record.time = some timeMs) : timeMs ∈ event.times := by
  have ticked : ∀ sev, record ∈ (match event.tick manager with
      | none => []
      | some nowMs => releaseRecords nowMs false sev (dueAggregate nowMs sev)) →
      timeMs ∈ event.times := by
    intro sev member
    cases ticks : event.tick manager with
    | none =>
        rw [ticks] at member
        cases member
    | some nowMs =>
        rw [ticks] at member
        rw [releaseRecords_time member seen]
        exact tick_mem_times ticks
  unfold sevRecords at member
  cases here : manager.sevs[index]? with
  | none =>
      rw [here] at member
      cases member
  | some sev =>
      rw [here] at member
      cases event with
      | process clock =>
          dsimp only at member
          split at member
          · cases member
          · split at member
            · rcases chainRecords_time member seen with rfl | rfl
              · exact List.mem_cons_self
              · exact List.mem_cons_of_mem _ (List.mem_singleton_self _)
            · cases member
      | flushEvents sevId nowMs =>
          dsimp only at member
          split at member
          · rw [releaseRecords_time member seen]
            exact List.mem_singleton_self _
          · cases member
      | _ => exact ticked sev member

/-- A manager with one event and its worker. -/
def windowStart (aggregationIntervalMs : UInt32) (threshold : UInt16) (intervalMs : UInt32) :
    Manager :=
  (Manager.init (some ⟨1, 10, 1, some [⟨0x8001, 0, .low, 2, none, 0, aggregationIntervalMs,
    ⟨threshold, intervalMs⟩, true, true⟩], 128⟩) .fresh).2

/-- Two events of one batch, processed at the given times. -/
def batchOfTwo (first second : UInt32) : List ManagerEvent :=
  [.report true 0 [1] 1 1 none, .report true 0 [2] 1 1 none, .wait 0, .drain,
    .process ⟨first, first, ⟨0, 0, .autosar⟩⟩, .process ⟨second, second, ⟨0, 0, .autosar⟩⟩]

end Clocks

end Idsm.IdsM
