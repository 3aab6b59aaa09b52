import Idsm.IdsM.Worker

/-! The filters of one event: which stage stops it, what the stages behind that one keep,
and that no event touches the filters of another. -/

set_option autoImplicit false

namespace Idsm.IdsM

open Idsm.IdsRm (OwnedQSEv)

/-- The stages of the chain in their order. -/
inductive Stage where
  | blockState
  | forwardEveryNth
  | aggregation
  | threshold
  deriving DecidableEq, Repr

def Stage.index : Stage → Nat
  | .blockState => 0
  | .forwardEveryNth => 1
  | .aggregation => 2
  | .threshold => 3

/-- The runtime state of a stage is the same; Block State has none of its own. -/
def Stage.Same (stage : Stage) (before after : SevState) : Prop :=
  match stage with
  | .blockState => True
  | .forwardEveryNth => after.nthCounter = before.nthCounter
  | .aggregation => after.aggPending = before.aggPending ∧
      after.aggHasContext = before.aggHasContext ∧
      after.aggWindowStartMs = before.aggWindowStartMs
  | .threshold => after.thrAccumulated = before.thrAccumulated ∧
      after.thrWindowStartMs = before.thrWindowStartMs ∧
      after.thrWindowOpen = before.thrWindowOpen

/-- The stage that drops or absorbs the event, if one does. -/
def stoppedAt (blockState : UInt8) (sev : SevState) (qsev : OwnedQSEv) (clock : Clock) :
    Option Stage :=
  if isBlockedByState blockState sev.config then some .blockState
  else
    match passForwardEveryNth sev qsev.count with
    | (false, _) => some .forwardEveryNth
    | (true, sev) =>
        match passAggregation sev qsev clock.stagedMs with
        | (false, _) => some .aggregation
        | (true, sev) =>
            match passThreshold sev qsev.count clock.nowMs with
            | (false, _) => some .threshold
            | (true, _) => none

section Stages

variable {sinks : Sinks} {sev : SevState} {tally : Tally}

theorem passForwardEveryNth_keeps (sev : SevState) (count : UInt16) :
    (passForwardEveryNth sev count).2.config = sev.config ∧
      Stage.aggregation.Same sev (passForwardEveryNth sev count).2 ∧
      Stage.threshold.Same sev (passForwardEveryNth sev count).2 := by
  unfold passForwardEveryNth
  dsimp only
  split
  · exact ⟨rfl, ⟨rfl, rfl, rfl⟩, rfl, rfl, rfl⟩
  · split
    · exact ⟨rfl, ⟨rfl, rfl, rfl⟩, rfl, rfl, rfl⟩
    · exact ⟨rfl, ⟨rfl, rfl, rfl⟩, rfl, rfl, rfl⟩

theorem passAggregation_keeps (sev : SevState) (qsev : OwnedQSEv) (nowMs : UInt32) :
    (passAggregation sev qsev nowMs).2.config = sev.config ∧
      Stage.threshold.Same sev (passAggregation sev qsev nowMs).2 := by
  unfold passAggregation
  split
  · exact ⟨rfl, rfl, rfl, rfl⟩
  · split
    · exact ⟨rfl, rfl, rfl, rfl⟩
    · exact ⟨rfl, rfl, rfl, rfl⟩

theorem passThreshold_keeps (sev : SevState) (count : UInt16) (nowMs : UInt32) :
    (passThreshold sev count nowMs).2.config = sev.config ∧
      Stage.aggregation.Same sev (passThreshold sev count nowMs).2 := by
  unfold passThreshold
  dsimp only
  split
  · exact ⟨rfl, rfl, rfl, rfl⟩
  · cases sev.thrWindowOpen with
    | true => exact ⟨rfl, rfl, rfl, rfl⟩
    | false => exact ⟨rfl, rfl, rfl, rfl⟩

/-- Behind the stage that stops the event nothing changes, and no sink is called. -/
structure StopsCleanly (stage : Stage) (before after : SevState) (tally later : Tally) : Prop where
  behind : ∀ other : Stage, stage.index < other.index → other.Same before after
  dem : later.dem = tally.dem
  idsr : later.idsr = tally.idsr

theorem filterChain_stopsCleanly {blockState : UInt8} {qsev : OwnedQSEv} {clock : Clock}
    {stage : Stage} (stopped : stoppedAt blockState sev qsev clock = some stage) :
    StopsCleanly stage sev (filterChain sinks blockState sev qsev clock tally).1 tally
      (filterChain sinks blockState sev qsev clock tally).2 := by
  have sampled := passForwardEveryNth_keeps sev qsev.count
  unfold stoppedAt at stopped
  unfold filterChain
  dsimp only
  split
  next blocked =>
    rw [if_pos blocked] at stopped
    cases stopped
    refine ⟨fun other _ => ?_, rfl, rfl⟩
    cases other with
    | blockState => trivial
    | forwardEveryNth => exact rfl
    | aggregation => exact ⟨rfl, rfl, rfl⟩
    | threshold => exact ⟨rfl, rfl, rfl⟩
  next passed =>
    rw [if_neg passed] at stopped
    split
    next after dropped =>
      rw [dropped] at stopped sampled
      cases stopped
      refine ⟨fun other behind => ?_, rfl, rfl⟩
      cases other with
      | blockState => exact absurd behind (by decide)
      | forwardEveryNth => exact absurd behind (by decide)
      | aggregation => exact sampled.2.1
      | threshold => exact sampled.2.2
    next after forwarded =>
      rw [forwarded] at stopped sampled
      dsimp only at stopped
      have aggregated := passAggregation_keeps after qsev clock.stagedMs
      split
      next staged absorbed =>
        rw [absorbed] at stopped aggregated
        cases stopped
        refine ⟨fun other behind => ?_, rfl, rfl⟩
        cases other with
        | blockState => exact absurd behind (by decide)
        | forwardEveryNth => exact absurd behind (by decide)
        | aggregation => exact absurd behind (by decide)
        | threshold =>
            obtain ⟨sum, start, window⟩ := sampled.2.2
            obtain ⟨sum', start', window'⟩ := aggregated.2
            exact ⟨sum'.trans sum, start'.trans start, window'.trans window⟩
      next staged handed =>
        rw [handed] at stopped
        dsimp only at stopped
        split
        next counted dropped =>
          rw [dropped] at stopped
          cases stopped
          refine ⟨fun other behind => ?_, rfl, rfl⟩
          cases other <;> exact absurd behind (by decide)
        next counted allowed =>
          rw [allowed] at stopped
          cases stopped

/-- The state that enters the chain. -/
def SevState.violated (sev : SevState) : SevState := { sev with detectionStatus := .violation }

/-- What a processed event does to its own state. -/
structure ProcessedCleanly (manager : Manager) (clock : Clock) (event : OwnedSEv)
    (before after : SevState) (later : Manager) : Prop where
  stopped : before.reportingMode ≠ .off → before.reportingMode.bypasses = false →
    ∀ stage, stoppedAt manager.blockState before.violated
        (buildQsev manager.idsmInstanceId before.violated event clock.internal) clock = some stage →
      StopsCleanly stage before after manager.tally later.tally
  bypassed : before.reportingMode = .off ∨ before.reportingMode.bypasses = true →
    ∀ stage : Stage, stage.Same before after
  off : before.reportingMode = .off →
    later.tally.dem = manager.tally.dem ∧ later.tally.idsr = manager.tally.idsr

theorem Stage.same_violated (stage : Stage) (sev : SevState) : stage.Same sev sev.violated := by
  cases stage with
  | blockState => trivial
  | forwardEveryNth => exact rfl
  | aggregation => exact ⟨rfl, rfl, rfl⟩
  | threshold => exact ⟨rfl, rfl, rfl⟩

theorem Stage.same_self (stage : Stage) (sev : SevState) : stage.Same sev sev := by
  cases stage with
  | blockState => trivial
  | forwardEveryNth => exact rfl
  | aggregation => exact ⟨rfl, rfl, rfl⟩
  | threshold => exact ⟨rfl, rfl, rfl⟩

theorem StopsCleanly.of_violated {stage : Stage} {after : SevState} {later : Tally}
    (clean : StopsCleanly stage sev.violated after tally later) :
    StopsCleanly stage sev after tally later := by
  refine ⟨fun other behind => ?_, clean.dem, clean.idsr⟩
  have same := clean.behind other behind
  cases other with
  | blockState => trivial
  | forwardEveryNth => exact same
  | aggregation => exact same
  | threshold => exact same

end Stages

section Managers

variable {manager : Manager} {clock : Clock} {event : OwnedSEv} {sevId : UInt16} {nowMs : UInt32}

theorem setSev_other {state : SevState} {other : Nat} (apart : other ≠ sevId.toNat) :
    (manager.setSev sevId state).sevs[other]? = manager.sevs[other]? :=
  List.getElem?_set_ne apart.symm

theorem setSev_same {state before : SevState} (here : manager.sevs[sevId.toNat]? = some before) :
    (manager.setSev sevId state).sevs[sevId.toNat]? = some state := by
  obtain ⟨inside, _⟩ := List.getElem?_eq_some_iff.mp here
  exact List.getElem?_set_self inside

theorem processEvent_other {other : Nat} (apart : other ≠ event.securityEventId.toNat) :
    (manager.processEvent clock event).sevs[other]? = manager.sevs[other]? := by
  unfold Manager.processEvent
  split
  · rfl
  · exact setSev_other apart

theorem flushEvents_other {other : Nat} (apart : other ≠ sevId.toNat) :
    (manager.flushEvents sevId nowMs).2.sevs[other]? = manager.sevs[other]? := by
  unfold Manager.flushEvents
  split
  · rfl
  · split
    · rfl
    · exact setSev_other apart

theorem processEvent_clean {before : SevState}
    (here : manager.sevs[event.securityEventId.toNat]? = some before) :
    ∃ after, (manager.processEvent clock event).sevs[event.securityEventId.toNat]? = some after ∧
      ProcessedCleanly manager clock event before after (manager.processEvent clock event) := by
  unfold Manager.processEvent
  rw [here]
  refine ⟨_, setSev_same here, ?_⟩
  dsimp only
  unfold processSev
  by_cases off : before.reportingMode = .off
  · rw [if_pos off]
    exact ⟨fun on => absurd off on, fun _ stage => stage.same_self before, fun _ => ⟨rfl, rfl⟩⟩
  · rw [if_neg off, ← SevState.violated]
    dsimp only
    split
    next bypasses =>
      refine ⟨fun _ filtered => ?_, fun _ stage => stage.same_violated before,
        fun impossible => absurd impossible off⟩
      exact absurd (bypasses.symm.trans filtered) (by simp)
    next filtered =>
      refine ⟨fun _ _ stage stopped => (filterChain_stopsCleanly stopped).of_violated, ?_,
        fun impossible => absurd impossible off⟩
      rintro (impossible | bypasses)
      · exact absurd impossible off
      · exact absurd bypasses filtered

/-- For every manager: a stage that stops an event keeps the later stages and the sinks out
of it, the modes off and bypassing keep all filters, and processing or flushing one event
leaves the states of the others alone. -/
theorem filters_isolated (manager : Manager) :
    (∀ clock event before, manager.sevs[event.securityEventId.toNat]? = some before →
      ∃ after, (manager.processEvent clock event).sevs[event.securityEventId.toNat]? = some after ∧
        ProcessedCleanly manager clock event before after (manager.processEvent clock event)) ∧
    (∀ clock event other, other ≠ event.securityEventId.toNat →
      (manager.processEvent clock event).sevs[other]? = manager.sevs[other]?) ∧
    ∀ sevId nowMs other, other ≠ sevId.toNat →
      (manager.flushEvents sevId nowMs).2.sevs[other]? = manager.sevs[other]? :=
  ⟨fun _ _ _ here => processEvent_clean here, fun _ _ _ apart => processEvent_other apart,
    fun _ _ _ apart => flushEvents_other apart⟩

end Managers

end Idsm.IdsM
