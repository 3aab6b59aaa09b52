import Idsm.IdsM.WindowProperties

/-! Forward Every Nth over whole runs: the events that pass the stage are those of a
sampler that adds up the counts since the last one that passed. -/

set_option autoImplicit false

namespace Idsm.IdsM

open Idsm.Foundation
open Idsm.IdsRm (OwnedQSEv)

section Fields

variable {β : Type} {field : SevState → β} {manager later : Manager} {event : ManagerEvent}
  {sevId : UInt16} {nowMs : UInt32}

/-- Fields of an event's state that only the processing of the event changes. -/
structure OnlyProcessed (field : SevState → β) : Prop where
  mode : ∀ sev mode, field { sev with reportingMode := mode } = field sev
  status : ∀ sev status, field { sev with detectionStatus := status } = field sev
  pending : ∀ sev count, field { sev with pendingCount := count } = field sev
  released : ∀ nowMs sev staged, field (releasedSev nowMs sev staged) = field sev
  expired : ∀ nowMs sev, field (expiredSev nowMs sev) = field sev

theorem setSev_field {before state : SevState}
    (here : manager.sevs[sevId.toNat]? = some before) (same : field state = field before) :
    (manager.setSev sevId state).sevs.map field = manager.sevs.map field := by
  unfold Manager.setSev
  rw [List.map_set, same]
  apply List.ext_getElem?
  intro index
  cases Nat.decEq sevId.toNat index with
  | isTrue place =>
      subst place
      obtain ⟨inside, _⟩ := List.getElem?_eq_some_iff.mp here
      rw [List.getElem?_set_self (by simpa using inside), List.getElem?_map, here]
      rfl
  | isFalse apart => exact List.getElem?_set_ne apart

theorem leaveQueue_field (only : OnlyProcessed field) (incoming : List OwnedSEv)
    (sevs : List SevState) :
    (incoming.foldl Manager.leaveQueue sevs).map field = sevs.map field := by
  induction incoming generalizing sevs with
  | nil => rfl
  | cons queued rest ih =>
      rw [List.foldl_cons, ih]
      unfold Manager.leaveQueue
      cases there : sevs[queued.securityEventId.toNat]? with
      | none => rfl
      | some state =>
          dsimp only
          split
          · exact @setSev_field β field { Manager.fresh with sevs := sevs } _ _ _ there
              (only.pending state _)
          · rfl

theorem expire_field (only : OnlyProcessed field) :
    (manager.expire nowMs).2.sevs.map field = manager.sevs.map field := by
  show (expireWindows manager.sinks nowMs manager.sevs manager.tally 0).1.map field = _
  rw [expireWindows_fst, List.map_map]
  apply List.map_congr_left
  intro sev _
  exact only.expired nowMs sev

theorem flushEvents_field (only : OnlyProcessed field) :
    (manager.flushEvents sevId nowMs).2.sevs.map field = manager.sevs.map field := by
  unfold Manager.flushEvents
  cases here : manager.sevs[sevId.toNat]? with
  | none => rfl
  | some state =>
      dsimp only
      cases state.aggPending with
      | none => rfl
      | some staged =>
          apply setSev_field here
          rw [release_fst]
          exact only.released nowMs state staged

/-- Every step but the processing of an event keeps such fields of all events. -/
theorem field_kept (only : OnlyProcessed field) (keeps : event.keepsSevs = true)
    (idle : ∀ clock, event ≠ .process clock) (stepped : managerStep manager event = some later) :
    later.sevs.map field = manager.sevs.map field := by
  cases event with
  | init config => cases keeps
  | join => cases keeps
  | process clock => exact absurd rfl (idle clock)
  | stop =>
      obtain rfl := Option.some.inj stepped
      rfl
  | blockStateChanged state =>
      obtain rfl := Option.some.inj stepped
      rfl
  | setDemReportCallback present =>
      obtain rfl := Option.some.inj stepped
      rfl
  | registerIdsrSink present =>
      obtain rfl := Option.some.inj stepped
      rfl
  | report checked sevId contextData contextVersion count timestamp =>
      rw [managerStep] at stepped
      cases checked with
      | false =>
          obtain rfl := Option.some.inj stepped
          rfl
      | true =>
          obtain rfl := Option.some.inj stepped
          unfold Manager.report
          cases here : manager.sevs[sevId.toNat]? with
          | none => rfl
          | some state => exact setSev_field here (only.pending state _)
  | setReportingMode sevId mode =>
      obtain rfl := Option.some.inj stepped
      unfold Manager.setReportingMode
      split
      next mode state _ here => exact setSev_field here (only.mode state mode)
      next => rfl
  | resetDetectionStatus sevId =>
      obtain rfl := Option.some.inj stepped
      unfold Manager.resetDetectionStatus
      cases here : manager.sevs[sevId.toNat]? with
      | none => rfl
      | some state => exact setSev_field here (only.status state _)
  | flushEvents sevId nowMs =>
      obtain rfl := Option.some.inj stepped
      exact flushEvents_field only
  | wait nowMs =>
      rw [managerStep] at stepped
      split at stepped
      next =>
        obtain rfl := Option.some.inj stepped
        dsimp only
        split
        · exact expire_field only
        · rfl
      next => cases stepped
  | drain =>
      rw [managerStep] at stepped
      split at stepped
      next =>
        obtain rfl := Option.some.inj stepped
        exact leaveQueue_field only manager.incoming manager.sevs
      next => cases stepped
  | expire nowMs =>
      rw [managerStep] at stepped
      split at stepped
      next =>
        obtain rfl := Option.some.inj stepped
        exact expire_field only
      next => cases stepped

end Fields

section Sampler

/-- An event that the stage evaluated. -/
structure Sampling where
  qsev : OwnedQSEv
  passed : Bool
  deriving DecidableEq, Repr

/-- The counts since the last event that passed. -/
def sumSincePass (seen : List Sampling) : Nat :=
  ((seen.reverse.takeWhile fun sampling => !sampling.passed).map
    fun sampling => sampling.qsev.count.toNat).sum

/-- The reference sampler's decision, after those of the past. -/
def SampledByLaw (n : UInt16) (past : List Sampling) (sampling : Sampling) : Prop :=
  sampling.passed = true ↔
    past = [] ∨ n.toNat ≤ sumSincePass past + sampling.qsev.count.toNat

/-- The counter starts at `n`. From the first event on it is the sum, and stays below `n`. -/
structure SamplingTracks (config : SecurityEventConfig) (seen : List Sampling) (sev : SevState) :
    Prop where
  configured : sev.config = config
  first : seen = [] → sev.nthCounter = config.forwardEveryNth
  later : seen ≠ [] → sev.nthCounter.toNat = sumSincePass seen
  bounded : seen ≠ [] → sev.nthCounter.toNat ≤ config.forwardEveryNth.toNat - 1

variable {config : SecurityEventConfig} {seen : List Sampling} {sev : SevState}

theorem sumSincePass_passed (seen : List Sampling) (qsev : OwnedQSEv) :
    sumSincePass (seen ++ [⟨qsev, true⟩]) = 0 := by
  simp [sumSincePass]

theorem sumSincePass_dropped (seen : List Sampling) (qsev : OwnedQSEv) :
    sumSincePass (seen ++ [⟨qsev, false⟩]) = sumSincePass seen + qsev.count.toNat := by
  simp [sumSincePass, Nat.add_comm]

theorem toNat_accumulated (counter count : UInt16) :
    (counter.toUInt32 + count.toUInt32).toNat = counter.toNat + count.toNat := by
  have counterBound := counter.toNat_lt
  have countBound := count.toNat_lt
  rw [UInt32.toNat_add, UInt16.toNat_toUInt32, UInt16.toNat_toUInt32]
  exact Nat.mod_eq_of_lt (by omega)

/-- The stage in numbers: the event passes when the sum reaches `n`, and below `n` the
narrowed sum is exact. -/
theorem passForwardEveryNth_cases (sev : SevState) (count : UInt16) :
    sev.config.forwardEveryNth.toNat ≤ sev.nthCounter.toNat + count.toNat ∧
        (passForwardEveryNth sev count).1 = true ∧
        (sev.config.forwardEveryNth ≠ 0 → (passForwardEveryNth sev count).2.nthCounter = 0) ∧
        (sev.config.forwardEveryNth = 0 →
          (passForwardEveryNth sev count).2.nthCounter = sev.nthCounter) ∨
      sev.nthCounter.toNat + count.toNat < sev.config.forwardEveryNth.toNat ∧
        (passForwardEveryNth sev count).1 = false ∧
        (passForwardEveryNth sev count).2.nthCounter.toNat =
          sev.nthCounter.toNat + count.toNat := by
  unfold passForwardEveryNth
  dsimp only
  cases decEq sev.config.forwardEveryNth 0 with
  | isTrue disabled =>
      rw [if_pos disabled]
      exact .inl ⟨by simp [disabled], rfl, fun enabled => absurd disabled enabled, fun _ => rfl⟩
  | isFalse enabled =>
      rw [if_neg enabled]
      have same : sev.config.forwardEveryNth.toUInt32 ≤
          sev.nthCounter.toUInt32 + count.toUInt32 ↔
            sev.config.forwardEveryNth.toNat ≤ sev.nthCounter.toNat + count.toNat := by
        rw [UInt32.le_iff_toNat_le, toNat_accumulated, UInt16.toNat_toUInt32]
      split
      next reached => exact .inl ⟨same.1 reached, rfl, fun _ => rfl, fun off => absurd off enabled⟩
      next below =>
        have under := Nat.lt_of_not_le fun reached => below (same.2 reached)
        refine .inr ⟨under, rfl, ?_⟩
        have bound := sev.config.forwardEveryNth.toNat_lt
        show (UInt32.toUInt16 _).toNat = _
        rw [UInt32.toNat_toUInt16, toNat_accumulated]
        exact Nat.mod_eq_of_lt (by omega)

/-- One evaluation follows the sampler and keeps the counter. -/
theorem SamplingTracks.evaluate {after : SevState} (qsev : OwnedQSEv)
    (tracks : SamplingTracks config seen sev) (sameConfig : after.config = sev.config)
    (counted : after.nthCounter = (passForwardEveryNth sev qsev.count).2.nthCounter) :
    SampledByLaw config.forwardEveryNth seen ⟨qsev, (passForwardEveryNth sev qsev.count).1⟩ ∧
      SamplingTracks config (seen ++ [⟨qsev, (passForwardEveryNth sev qsev.count).1⟩]) after := by
  have stage := passForwardEveryNth_cases sev qsev.count
  rw [← counted, tracks.configured] at stage
  have configured := sameConfig.trans tracks.configured
  have some (sampling : Sampling) : seen ++ [sampling] ≠ [] := by simp
  rcases stage with ⟨reached, passes, reset, kept⟩ | ⟨below, drops, sum⟩
  · rw [passes]
    have zero : after.nthCounter.toNat = 0 := by
      cases decEq config.forwardEveryNth 0 with
      | isFalse on => rw [reset on, UInt16.toNat_zero]
      | isTrue off =>
          rw [kept off]
          cases seen with
          | nil => rw [tracks.first rfl, off, UInt16.toNat_zero]
          | cons head tail =>
              have bound := tracks.bounded (List.cons_ne_nil head tail)
              rw [off, UInt16.toNat_zero] at bound
              exact Nat.le_zero.mp bound
    refine ⟨iff_of_true rfl ?_, configured, fun none => absurd none (some _), fun _ => ?_,
      fun _ => zero ▸ Nat.zero_le _⟩
    · cases seen with
      | nil => exact .inl rfl
      | cons head tail =>
          rw [← tracks.later (List.cons_ne_nil head tail)]
          exact .inr reached
    · rw [sumSincePass_passed, zero]
  · rw [drops]
    have before : seen ≠ [] := by
      intro none
      rw [tracks.first none] at below
      omega
    refine ⟨iff_of_false Bool.false_ne_true ?_, configured, fun none => absurd none (some _),
      fun _ => ?_, fun _ => sum ▸ Nat.le_sub_one_of_lt below⟩
    · rw [← tracks.later before]
      exact fun either => either.elim before (Nat.not_le_of_lt below)
    · rw [sumSincePass_dropped, ← tracks.later before, sum]

end Sampler

section Runs

variable {manager later : Manager} {event : ManagerEvent} {clock : Clock} {queued : OwnedSEv}
  {sinks : Sinks} {sev : SevState} {tally : Tally} {blockState : UInt8} {index : Nat}

/-- The stage evaluates an event that no mode and no block state takes out before it. -/
def chainSamplings (manager : Manager) (clock : Clock) (event : OwnedSEv) (sev : SevState) :
    List Sampling :=
  let sev := sev.violated
  let qsev := buildQsev manager.idsmInstanceId sev event clock.internal
  if sev.reportingMode = .off ∨ sev.reportingMode.bypasses = true then []
  else if isBlockedByState manager.blockState sev.config then []
  else [⟨qsev, (passForwardEveryNth sev qsev.count).1⟩]

def samplings (index : Nat) (manager : Manager) : ManagerEvent → List Sampling
  | .process clock =>
      match manager.batch, manager.sevs[index]? with
      | queued :: _, some sev =>
          if queued.securityEventId.toNat = index then chainSamplings manager clock queued sev
          else []
      | _, _ => []
  | _ => []

/-- The next filters and the sinks get the event as it is, or not at all. -/
structure HandedOn (sampling : Sampling) (records : List FilterRecord) (before after : Tally) :
    Prop where
  passed : sampling.passed = true → ∃ timeMs, records = [.aggregated timeMs sampling.qsev] ∨
    ∃ passed, records = [.evaluated timeMs sampling.qsev.count passed]
  dropped : sampling.passed = false →
    records = [] ∧ after.dem = before.dem ∧ after.idsr = before.idsr
  dem : after.dem = before.dem ∨ after.dem = before.dem ++ [sampling.qsev]
  idsr : after.idsr = before.idsr ∨ after.idsr = before.idsr ++ [sampling.qsev]

theorem passThreshold_nthCounter (sev : SevState) (count : UInt16) (nowMs : UInt32) :
    (passThreshold sev count nowMs).2.nthCounter = sev.nthCounter := by
  unfold passThreshold
  dsimp only
  split
  · rfl
  · cases sev.thrWindowOpen with
    | true => rfl
    | false => rfl

theorem passAggregation_nthCounter (sev : SevState) (qsev : OwnedQSEv) (nowMs : UInt32) :
    (passAggregation sev qsev nowMs).2.nthCounter = sev.nthCounter := by
  unfold passAggregation
  split
  · rfl
  · cases sev.aggPending with
    | none => rfl
    | some staged => rfl

theorem sampling_onlyProcessed :
    OnlyProcessed fun sev : SevState => (sev.config, sev.nthCounter) := by
  have released : ∀ nowMs sev staged, ((releasedSev nowMs sev staged).config,
      (releasedSev nowMs sev staged).nthCounter) = (sev.config, sev.nthCounter) := by
    intro nowMs sev staged
    unfold releasedSev
    rw [passThreshold_nthCounter, (passThreshold_keeps _ staged.qsev.count nowMs).1]
  refine ⟨fun _ _ => rfl, fun _ _ => rfl, fun _ _ => rfl, released, fun nowMs sev => ?_⟩
  unfold expiredSev
  cases dueAggregate nowMs sev with
  | some staged => exact released nowMs sev staged
  | none =>
      dsimp only
      unfold expireThreshold
      dsimp only
      split
      · split <;> rfl
      · rfl

theorem dispatchQsev_sinks (config : SecurityEventConfig) (qsev : OwnedQSEv) :
    ((dispatchQsev sinks config qsev tally).dem = tally.dem ∨
        (dispatchQsev sinks config qsev tally).dem = tally.dem ++ [qsev]) ∧
      ((dispatchQsev sinks config qsev tally).idsr = tally.idsr ∨
        (dispatchQsev sinks config qsev tally).idsr = tally.idsr ++ [qsev]) := by
  unfold dispatchQsev
  cases config.sinkToDem && sinks.dem with
  | true =>
      cases config.sinkToIdsr && sinks.idsr with
      | true => exact ⟨.inr rfl, .inr rfl⟩
      | false => exact ⟨.inr rfl, .inl rfl⟩
  | false =>
      cases config.sinkToIdsr && sinks.idsr with
      | true => exact ⟨.inl rfl, .inr rfl⟩
      | false => exact ⟨.inl rfl, .inl rfl⟩

theorem filterChain_sampled (qsev : OwnedQSEv) :
    (filterChain sinks blockState sev qsev clock tally).1.nthCounter =
      if isBlockedByState blockState sev.config then sev.nthCounter
      else (passForwardEveryNth sev qsev.count).2.nthCounter := by
  unfold filterChain
  dsimp only
  cases isBlockedByState blockState sev.config with
  | true => rfl
  | false =>
      simp only [Bool.false_eq_true, if_false]
      generalize passForwardEveryNth sev qsev.count = stage
      obtain ⟨passes, after⟩ := stage
      cases passes with
      | false => rfl
      | true =>
          dsimp only
          have aggregated := passAggregation_nthCounter after qsev clock.stagedMs
          generalize passAggregation after qsev clock.stagedMs = aggregation at *
          obtain ⟨handed, staged⟩ := aggregation
          cases handed with
          | false => exact aggregated
          | true =>
              dsimp only
              have counted := passThreshold_nthCounter staged qsev.count clock.nowMs
              generalize passThreshold staged qsev.count clock.nowMs = threshold at *
              obtain ⟨allowed, last⟩ := threshold
              cases allowed with
              | false => exact counted.trans aggregated
              | true => exact counted.trans aggregated

theorem filterChain_sinks (qsev : OwnedQSEv) :
    ((filterChain sinks blockState sev qsev clock tally).2.dem = tally.dem ∨
        (filterChain sinks blockState sev qsev clock tally).2.dem = tally.dem ++ [qsev]) ∧
      ((filterChain sinks blockState sev qsev clock tally).2.idsr = tally.idsr ∨
        (filterChain sinks blockState sev qsev clock tally).2.idsr = tally.idsr ++ [qsev]) := by
  unfold filterChain
  dsimp only
  split
  · exact ⟨.inl rfl, .inl rfl⟩
  · split
    · exact ⟨.inl rfl, .inl rfl⟩
    · split
      · exact ⟨.inl rfl, .inl rfl⟩
      · split
        · exact ⟨.inl rfl, .inl rfl⟩
        · exact dispatchQsev_sinks _ qsev

theorem passForwardEveryNth_violated (sev : SevState) (count : UInt16) :
    (passForwardEveryNth sev.violated count).1 = (passForwardEveryNth sev count).1 ∧
      (passForwardEveryNth sev.violated count).2.nthCounter =
        (passForwardEveryNth sev count).2.nthCounter := by
  unfold passForwardEveryNth SevState.violated
  dsimp only
  split
  · exact ⟨rfl, rfl⟩
  · split
    · exact ⟨rfl, rfl⟩
    · exact ⟨rfl, rfl⟩

/-- The processing of an event in its own state, by what the stage evaluated. -/
theorem processSev_sampled :
    (chainSamplings manager clock queued sev = [] →
      (processSev manager.sinks manager.idsmInstanceId manager.blockState clock queued sev
        tally).1.nthCounter = sev.nthCounter) ∧
    ∀ sampling ∈ chainSamplings manager clock queued sev,
      chainSamplings manager clock queued sev = [sampling] ∧
      sampling.passed = (passForwardEveryNth sev sampling.qsev.count).1 ∧
      (processSev manager.sinks manager.idsmInstanceId manager.blockState clock queued sev
        tally).1.nthCounter = (passForwardEveryNth sev sampling.qsev.count).2.nthCounter ∧
      HandedOn sampling (chainRecords manager clock queued sev) tally
        (processSev manager.sinks manager.idsmInstanceId manager.blockState clock queued sev
          tally).2 := by
  unfold chainSamplings chainRecords processSev
  rw [← SevState.violated]
  dsimp only
  by_cases off : sev.reportingMode = .off
  · rw [if_pos (.inl off), if_pos off]
    exact ⟨fun _ => rfl, fun sampling member => absurd member List.not_mem_nil⟩
  · rw [if_neg off]
    by_cases bypasses : sev.violated.reportingMode.bypasses = true
    · rw [if_pos (.inr bypasses), if_pos bypasses]
      exact ⟨fun _ => rfl, fun sampling member => absurd member List.not_mem_nil⟩
    · have inside : ¬(sev.violated.reportingMode = .off ∨
          sev.violated.reportingMode.bypasses = true) := fun either => either.elim off bypasses
      rw [if_neg inside, if_neg inside, if_neg bypasses]
      generalize buildQsev manager.idsmInstanceId sev.violated queued clock.internal = qsev
      have counter := @filterChain_sampled clock manager.sinks sev.violated tally
        manager.blockState qsev
      obtain ⟨dem, idsr⟩ := @filterChain_sinks clock manager.sinks sev.violated tally
        manager.blockState qsev
      by_cases blocked : isBlockedByState manager.blockState sev.violated.config = true
      · rw [if_pos blocked] at counter ⊢
        exact ⟨fun _ => counter, fun sampling member => absurd member List.not_mem_nil⟩
      · rw [if_neg blocked] at counter ⊢
        refine ⟨fun none => absurd none (List.cons_ne_nil _ _), fun sampling member => ?_⟩
        obtain rfl := List.mem_singleton.mp member
        have same := passForwardEveryNth_violated sev qsev.count
        refine ⟨rfl, same.1, counter.trans same.2, ?_, ?_, dem, idsr⟩
        · intro passes
          dsimp only at passes ⊢
          rw [if_neg blocked]
          generalize passForwardEveryNth sev.violated qsev.count = stage at passes
          obtain ⟨_, after⟩ := stage
          subst passes
          dsimp only
          generalize passAggregation after qsev clock.stagedMs = aggregation
          obtain ⟨handed, staged⟩ := aggregation
          cases handed with
          | false => exact ⟨clock.stagedMs, .inl rfl⟩
          | true => exact ⟨clock.nowMs, .inr ⟨_, rfl⟩⟩
        · intro drops
          dsimp only at drops ⊢
          rw [if_neg blocked]
          unfold filterChain
          dsimp only
          rw [if_neg blocked]
          generalize passForwardEveryNth sev.violated qsev.count = stage at drops
          obtain ⟨_, after⟩ := stage
          subst drops
          exact ⟨rfl, rfl, rfl⟩

/-- One step of the manager, seen from the stage of one event. -/
structure SampledStep (index : Nat) (manager : Manager) (event : ManagerEvent)
    (before : SevState) (later : Manager) (after : SevState) : Prop where
  found : later.sevs[index]? = some after
  config : after.config = before.config
  quiet : samplings index manager event = [] → after.nthCounter = before.nthCounter
  sampled : ∀ sampling ∈ samplings index manager event,
    samplings index manager event = [sampling] ∧
    sampling.passed = (passForwardEveryNth before sampling.qsev.count).1 ∧
    after.nthCounter = (passForwardEveryNth before sampling.qsev.count).2.nthCounter ∧
    HandedOn sampling (sevRecords index manager event) manager.tally later.tally

theorem SampledStep.of_quiet {before : SevState} (here : manager.sevs[index]? = some before)
    (none : samplings index manager event = [])
    (kept : later.sevs.map (fun sev => (sev.config, sev.nthCounter)) =
      manager.sevs.map fun sev => (sev.config, sev.nthCounter)) :
    ∃ after, SampledStep index manager event before later after := by
  have same := congrArg (fun fields => fields[index]?) kept
  rw [List.getElem?_map, List.getElem?_map, here] at same
  obtain ⟨after, found, fields⟩ := Option.map_eq_some_iff.mp same
  obtain ⟨config, counter⟩ := Prod.mk.inj fields
  refine ⟨after, found, config, fun _ => counter, fun sampling member => ?_⟩
  rw [none] at member
  exact absurd member List.not_mem_nil

theorem sampled_step {before : SevState} (here : manager.sevs[index]? = some before)
    (keeps : event.keepsSevs = true) (stepped : managerStep manager event = some later) :
    ∃ after, SampledStep index manager event before later after := by
  have idle : (∀ clock, event ≠ .process clock) →
      ∃ after, SampledStep index manager event before later after := by
    intro other
    have none : samplings index manager event = [] := by
      cases event with
      | process clock => exact absurd rfl (other clock)
      | _ => rfl
    exact SampledStep.of_quiet here none (field_kept sampling_onlyProcessed keeps other stepped)
  cases event with
  | process clock =>
      rw [managerStep] at stepped
      split at stepped
      next =>
        cases queue : manager.batch with
        | nil =>
            rw [queue] at stepped
            obtain rfl := Option.some.inj stepped
            exact SampledStep.of_quiet here (by rw [samplings, queue]) rfl
        | cons queued rest =>
            rw [queue] at stepped
            obtain rfl := Option.some.inj stepped
            by_cases place : queued.securityEventId.toNat = index
            · subst place
              have drawn : samplings queued.securityEventId.toNat manager (.process clock) =
                  chainSamplings manager clock queued before := by
                rw [samplings, queue, here]
                exact if_pos rfl
              have records : sevRecords queued.securityEventId.toNat manager (.process clock) =
                  chainRecords manager clock queued before := by
                unfold sevRecords
                rw [here]
                dsimp only
                rw [queue]
                exact if_pos rfl
              obtain ⟨quiet, sampled⟩ :=
                @processSev_sampled manager clock queued before manager.tally
              have config := (@processSev_step manager (.process clock) before manager.tally clock
                queued).1
              refine ⟨_, ?_, config, ?_, ?_⟩
              · show (manager.processEvent clock queued).sevs[_]? = _
                unfold Manager.processEvent
                rw [here]
                exact setSev_same here
              · rw [drawn]
                exact quiet
              · rw [drawn, records]
                show ∀ sampling ∈ _, _ ∧ _ ∧ _ ∧
                  HandedOn _ _ _ (manager.processEvent clock queued).tally
                unfold Manager.processEvent
                rw [here]
                exact sampled
            · have none : samplings index manager (.process clock) = [] := by
                rw [samplings, queue, here]
                exact if_neg place
              have found : (manager.processEvent clock queued).sevs[index]? = some before :=
                (processEvent_other (Ne.symm place)).trans here
              refine ⟨before, found, rfl, fun _ => rfl, fun sampling member => ?_⟩
              rw [none] at member
              exact absurd member List.not_mem_nil
      next => cases stepped
  | _ => exact idle fun _ => by simp

end Runs

section Law

variable {start last : Manager} {transitions : List ManagerTransition} {index : Nat}
  {config : SecurityEventConfig}

/-- All that the stage of one event evaluated. -/
def sampledBy (index : Nat) (past : List ManagerTransition) : List Sampling :=
  past.flatMap fun transition => samplings index transition.before transition.event

theorem sampledBy_append (past : List ManagerTransition) (transition : ManagerTransition) :
    sampledBy index (past ++ [transition]) =
      sampledBy index past ++ samplings index transition.before transition.event := by
  rw [sampledBy, List.flatMap_append, List.flatMap_singleton, sampledBy]

/-- The run's invariant for one event. -/
def SamplingFollowed (index : Nat) (config : SecurityEventConfig)
    (past : List ManagerTransition) (manager : Manager) : Prop :=
  ∃ sev, manager.sevs[index]? = some sev ∧ SamplingTracks config (sampledBy index past) sev

/-- What the law says about one step. -/
structure StepSampled (index : Nat) (config : SecurityEventConfig)
    (past : List ManagerTransition) (transition : ManagerTransition) : Prop where
  decided : ∀ sampling ∈ samplings index transition.before transition.event,
    SampledByLaw config.forwardEveryNth (sampledBy index past) sampling ∧
      HandedOn sampling (sevRecords index transition.before transition.event)
        transition.before.tally transition.after.tally
  counted : ∃ sev, transition.after.sevs[index]? = some sev ∧
    SamplingTracks config (sampledBy index (past ++ [transition])) sev

theorem sampling_step {past : List ManagerTransition} {manager next : Manager}
    {event : ManagerEvent} (followed : SamplingFollowed index config past manager)
    (keeps : event.keepsSevs = true) (stepped : managerStep manager event = some next) :
    StepSampled index config past ⟨manager, event, next⟩ := by
  obtain ⟨sev, here, tracks⟩ := followed
  obtain ⟨after, step⟩ := sampled_step here keeps stepped
  have new := @sampledBy_append index past ⟨manager, event, next⟩
  dsimp only at new
  cases drawn : samplings index manager event with
  | nil =>
      refine ⟨fun sampling member => ?_, after, step.found, ?_⟩
      · dsimp only at member
        rw [drawn] at member
        exact absurd member List.not_mem_nil
      · rw [new, drawn, List.append_nil]
        obtain ⟨configured, first, later, bounded⟩ := tracks
        have counter := step.quiet drawn
        exact ⟨step.config.trans configured, counter ▸ first, counter ▸ later, counter ▸ bounded⟩
  | cons sampling others =>
      obtain ⟨single, passed, counted, handed⟩ :=
        step.sampled sampling (drawn ▸ List.mem_cons_self)
      obtain ⟨qsev, verdict⟩ := sampling
      dsimp only at passed
      subst passed
      obtain ⟨law, tracks⟩ := tracks.evaluate qsev step.config counted
      refine ⟨fun other member => ?_, after, step.found, ?_⟩
      · dsimp only at member
        rw [single] at member
        obtain rfl := List.mem_singleton.mp member
        exact ⟨law, handed⟩
      · rw [new, single]
        exact tracks

/-- [SWS_IdsM_01030-01034] in every run from the state that `Init` gives an event: the stage
passes the events of the reference sampler, with their counts, and its counter is the
sampler's sum. -/
theorem forwardEveryNth_law (run : Execution managerStep start transitions last)
    (here : start.sevs[index]? = some (.initial config))
    (keeps : ∀ transition ∈ transitions, transition.event.keepsSevs = true) :
    ∀ past transition rest, transitions = past ++ transition :: rest →
      StepSampled index config past transition := by
  have counted : ∀ {past state event later}, SamplingFollowed index config past state →
      event.keepsSevs = true → managerStep state event = some later →
      SamplingFollowed index config (past ++ [⟨state, event, later⟩]) later :=
    fun followed keeps stepped => (sampling_step followed keeps stepped).counted
  refine run.forall_history counted sampling_step ⟨_, here, rfl, fun _ => rfl, ?_, ?_⟩ keeps
  · intro impossible
    exact absurd rfl impossible
  · intro impossible
    exact absurd rfl impossible

/-- Counts of 1, 2 and 7 with `n = 3`. -/
theorem forwardEveryNth_sample :
    ∃ start transitions last, execute managerStep start
        [.report true 0 [] 1 1 none, .report true 0 [] 1 2 none, .report true 0 [] 1 7 none,
          .wait 0, .drain, .process ⟨0, 0, ⟨0, 0, .autosar⟩⟩, .process ⟨0, 0, ⟨0, 0, .autosar⟩⟩,
          .process ⟨0, 0, ⟨0, 0, .autosar⟩⟩] = some (transitions, last) ∧
      (sampledBy 0 transitions).map Sampling.passed = [true, false, true] ∧
      ∀ past transition rest, transitions = past ++ transition :: rest →
        StepSampled 0 ⟨0x8001, 0, .low, 2, none, 3, 0, ⟨0, 0⟩, true, true⟩ past transition := by
  have ran : execute managerStep
      (Manager.init (some ⟨1, 10, 1,
        some [⟨0x8001, 0, .low, 2, none, 3, 0, ⟨0, 0⟩, true, true⟩], 128⟩) .fresh).2
      [.report true 0 [] 1 1 none, .report true 0 [] 1 2 none, .report true 0 [] 1 7 none,
        .wait 0, .drain, .process ⟨0, 0, ⟨0, 0, .autosar⟩⟩, .process ⟨0, 0, ⟨0, 0, .autosar⟩⟩,
        .process ⟨0, 0, ⟨0, 0, .autosar⟩⟩] = some _ := rfl
  have law := @forwardEveryNth_law _ _ _ 0 _ (execution_of_execute ran) rfl
  exact ⟨_, _, _, ran, by decide, law (by decide)⟩

end Law

end Idsm.IdsM
