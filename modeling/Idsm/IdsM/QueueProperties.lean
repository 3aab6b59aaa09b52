import Idsm.IdsM.SamplingProperties
import Idsm.IdsM.StatsProperties

/-! The queue of reported events over whole runs: its length beside the configured buffer size,
and the pending counters of the events. -/

set_option autoImplicit false

namespace Idsm.IdsM

open Idsm.Foundation
open Idsm.IdsRm (OwnedQSEv)

/-- The manager, and the buffer size of the configuration it runs with, which it does not keep. -/
structure Ingress where
  manager : Manager
  eventBufferSize : UInt32
  deriving DecidableEq

def Ingress.fresh : Ingress := ⟨.fresh, 0⟩

/-- The buffer size behind an event: an accepted configuration's, or the one before. -/
def Ingress.configured (ingress : Ingress) : ManagerEvent → UInt32
  | .init (some config) =>
      if (ingress.manager.init (some config)).1 = .ok then config.eventBufferSize
      else ingress.eventBufferSize
  | _ => ingress.eventBufferSize

def ingressStep (ingress : Ingress) (event : ManagerEvent) : Option Ingress :=
  (managerStep ingress.manager event).map fun later => ⟨later, ingress.configured event⟩

/-- The pending counters are the numbers of queue entries. -/
def Counted (incoming : List OwnedSEv) (sevs : List SevState) : Prop :=
  ∀ (index : Nat) (sev : SevState), sevs[index]? = some sev →
    sev.pendingCount.toNat = incoming.countP fun owned => owned.securityEventId.toNat = index

/-- The queue stays within the buffer and is counted. -/
structure QueueLaw (ingress : Ingress) : Prop where
  bounded : ingress.manager.incoming.length ≤ ingress.eventBufferSize.toNat
  counted : Counted ingress.manager.incoming ingress.manager.sevs

/-- A report that is taken finds room in the buffer. -/
def FindsRoom (ingress : Ingress) : ManagerEvent → Prop
  | .report true sevId _ _ _ _ => sevId.toNat < ingress.manager.sevs.length →
      ingress.manager.incoming.length < ingress.eventBufferSize.toNat
  | _ => True

section Pending

variable {sinks : Sinks} {sev : SevState} {tally : Tally} {nowMs : UInt32}

theorem passForwardEveryNth_pendingCount (sev : SevState) (count : UInt16) :
    (passForwardEveryNth sev count).2.pendingCount = sev.pendingCount := by
  unfold passForwardEveryNth
  dsimp only
  split
  · rfl
  · split <;> rfl

theorem passThreshold_pendingCount (sev : SevState) (count : UInt16) (nowMs : UInt32) :
    (passThreshold sev count nowMs).2.pendingCount = sev.pendingCount := by
  unfold passThreshold
  dsimp only
  split
  · rfl
  · cases sev.thrWindowOpen <;> rfl

theorem passAggregation_pendingCount (sev : SevState) (qsev : OwnedQSEv) (nowMs : UInt32) :
    (passAggregation sev qsev nowMs).2.pendingCount = sev.pendingCount := by
  unfold passAggregation
  split
  · rfl
  · cases sev.aggPending <;> rfl

theorem releasedSev_pendingCount (staged : StagedQSEv) :
    (releasedSev nowMs sev staged).pendingCount = sev.pendingCount :=
  passThreshold_pendingCount _ _ _

theorem expiredSev_pendingCount : (expiredSev nowMs sev).pendingCount = sev.pendingCount := by
  unfold expiredSev
  split
  · exact releasedSev_pendingCount _
  · unfold expireThreshold
    dsimp only
    split
    · split <;> rfl
    · rfl

theorem filterChain_pendingCount {blockState : UInt8} {qsev : OwnedQSEv} {clock : Clock} :
    (filterChain sinks blockState sev qsev clock tally).1.pendingCount = sev.pendingCount := by
  have sampled := passForwardEveryNth_pendingCount sev qsev.count
  unfold filterChain
  dsimp only
  split
  · rfl
  · split
    next after passed => rw [passed] at sampled; exact sampled
    next after passed =>
      rw [passed] at sampled
      have aggregated := passAggregation_pendingCount after qsev clock.stagedMs
      split
      next staged held => rw [held] at aggregated; exact aggregated.trans sampled
      next staged held =>
        rw [held] at aggregated
        have counted := passThreshold_pendingCount staged qsev.count clock.nowMs
        split
        next last dropped => rw [dropped] at counted; exact counted.trans (aggregated.trans sampled)
        next last dropped => rw [dropped] at counted; exact counted.trans (aggregated.trans sampled)

theorem processSev_pendingCount {instanceId : UInt16} {blockState : UInt8} {clock : Clock}
    {queued : OwnedSEv} :
    (processSev sinks instanceId blockState clock queued sev tally).1.pendingCount =
      sev.pendingCount := by
  unfold processSev
  dsimp only
  split
  · rfl
  · split
    · rfl
    · exact filterChain_pendingCount

end Pending

section Steps

variable {manager later : Manager} {event : ManagerEvent} {incoming : List OwnedSEv}
  {sevs : List SevState}

/-- Neither the queue nor a pending counter changes. -/
structure QueueKept (manager later : Manager) : Prop where
  incoming : later.incoming = manager.incoming
  pending : later.sevs.map SevState.pendingCount = manager.sevs.map SevState.pendingCount

theorem QueueKept.refl (manager : Manager) : QueueKept manager manager := ⟨rfl, rfl⟩

theorem Counted.of_pending {others : List SevState} (counted : Counted incoming sevs)
    (same : others.map SevState.pendingCount = sevs.map SevState.pendingCount) :
    Counted incoming others := by
  intro index sev here
  have mapped := congrArg (fun counts => counts[index]?) same
  rw [List.getElem?_map, List.getElem?_map, here] at mapped
  obtain ⟨before, found, equal⟩ := Option.map_eq_some_iff.1 mapped.symm
  rw [← equal]
  exact counted index before found

theorem setSev_kept {sevId : UInt16} {before state : SevState}
    (here : manager.sevs[sevId.toNat]? = some before)
    (same : state.pendingCount = before.pendingCount) :
    QueueKept manager (manager.setSev sevId state) :=
  ⟨rfl, setSev_field here same⟩

theorem expire_kept (manager : Manager) (nowMs : UInt32) :
    QueueKept manager (manager.expire nowMs).2 := by
  refine ⟨rfl, ?_⟩
  show (expireWindows manager.sinks nowMs manager.sevs manager.tally 0).1.map _ = _
  rw [expireWindows_fst, List.map_map]
  exact List.map_congr_left fun sev _ => expiredSev_pendingCount

/-- The events that change the queue or the table of the events. -/
def ManagerEvent.requeues : ManagerEvent → Bool
  | .init _ => true
  | .join => true
  | .report .. => true
  | .drain => true
  | _ => false

theorem queueKept_step (quiet : event.requeues = false)
    (stepped : managerStep manager event = some later) : QueueKept manager later := by
  cases event with
  | init config => cases quiet
  | join => cases quiet
  | report checked sevId contextData contextVersion count timestamp => cases quiet
  | drain => cases quiet
  | setReportingMode sevId mode =>
      obtain rfl := Option.some.inj stepped
      unfold Manager.setReportingMode
      split
      next mode state _ here => exact setSev_kept here rfl
      next => exact .refl manager
  | resetDetectionStatus sevId =>
      obtain rfl := Option.some.inj stepped
      unfold Manager.resetDetectionStatus
      cases here : manager.sevs[sevId.toNat]? with
      | none => exact .refl manager
      | some state => exact setSev_kept here rfl
  | flushEvents sevId nowMs =>
      obtain rfl := Option.some.inj stepped
      unfold Manager.flushEvents
      cases here : manager.sevs[sevId.toNat]? with
      | none => exact .refl manager
      | some state =>
          dsimp only
          cases state.aggPending with
          | none => exact .refl manager
          | some staged =>
              have kept := @setSev_kept manager sevId state _ here
                (@releasedSev_pendingCount state nowMs staged)
              rw [← @release_fst manager.sinks state manager.tally nowMs staged] at kept
              exact ⟨kept.incoming, kept.pending⟩
  | wait nowMs =>
      rw [managerStep] at stepped
      split at stepped
      next =>
        obtain rfl := Option.some.inj stepped
        split
        · exact ⟨(expire_kept manager nowMs).incoming, (expire_kept manager nowMs).pending⟩
        · exact ⟨rfl, rfl⟩
      next => cases stepped
  | process clock =>
      rw [managerStep] at stepped
      split at stepped
      next =>
        cases queued : manager.batch with
        | nil =>
            rw [queued] at stepped
            obtain rfl := Option.some.inj stepped
            exact ⟨rfl, rfl⟩
        | cons sev rest =>
            rw [queued] at stepped
            obtain rfl := Option.some.inj stepped
            unfold Manager.processEvent
            cases here : manager.sevs[sev.securityEventId.toNat]? with
            | none => exact ⟨rfl, rfl⟩
            | some state =>
                have kept := @setSev_kept manager sev.securityEventId state _ here
                  (@processSev_pendingCount manager.sinks state manager.tally
                    manager.idsmInstanceId manager.blockState clock sev)
                exact ⟨kept.incoming, kept.pending⟩
      next => cases stepped
  | expire nowMs =>
      rw [managerStep] at stepped
      split at stepped
      next =>
        obtain rfl := Option.some.inj stepped
        exact ⟨(expire_kept manager nowMs).incoming, (expire_kept manager nowMs).pending⟩
      next => cases stepped
  | _ =>
      obtain rfl := Option.some.inj stepped
      exact ⟨rfl, rfl⟩

/-- One queue entry more, and its event counts it. -/
theorem Counted.push {owned : OwnedSEv} {state : SevState} (counted : Counted incoming sevs)
    (here : sevs[owned.securityEventId.toNat]? = some state) (small : incoming.length < 2 ^ 32 - 1) :
    Counted (incoming ++ [owned])
      (sevs.set owned.securityEventId.toNat { state with pendingCount := state.pendingCount + 1 }) := by
  intro index sev found
  rw [List.countP_append, List.countP_singleton]
  obtain ⟨inside, _⟩ := List.getElem?_eq_some_iff.1 here
  by_cases own : owned.securityEventId.toNat = index
  · subst own
    rw [List.getElem?_set_self inside] at found
    obtain rfl := Option.some.inj found
    have before := counted _ state here
    have few := List.countP_le_length (p := fun entry : OwnedSEv =>
      decide (entry.securityEventId.toNat = owned.securityEventId.toNat)) (l := incoming)
    rw [if_pos (decide_eq_true rfl), ← before]
    rw [← before] at few
    rw [UInt32.toNat_add]
    change (state.pendingCount.toNat + 1) % 2 ^ 32 = _
    omega
  · rw [List.getElem?_set_ne own] at found
    rw [if_neg (by simpa using own), Nat.add_zero]
    exact counted index sev found

/-- The front entry leaves, and its event counts it no more. -/
theorem Counted.pop {owned : OwnedSEv} (counted : Counted (owned :: incoming) sevs) :
    Counted incoming (Manager.leaveQueue sevs owned) := by
  unfold Manager.leaveQueue
  intro index sev found
  cases here : sevs[owned.securityEventId.toNat]? with
  | none =>
      rw [here] at found
      have other : owned.securityEventId.toNat ≠ index := by
        rintro rfl
        rw [here] at found
        cases found
      have whole := counted index sev found
      rwa [List.countP_cons, if_neg (by simpa using other), Nat.add_zero] at whole
  | some state =>
      rw [here] at found
      dsimp only at found
      have own := counted _ state here
      rw [List.countP_cons, if_pos (decide_eq_true rfl)] at own
      have waiting : 0 < state.pendingCount := by
        apply UInt32.lt_iff_toNat_lt.2
        rw [own]
        exact Nat.succ_pos _
      rw [if_pos waiting] at found
      obtain ⟨inside, _⟩ := List.getElem?_eq_some_iff.1 here
      by_cases same : owned.securityEventId.toNat = index
      · subst same
        rw [List.getElem?_set_self inside] at found
        obtain rfl := Option.some.inj found
        rw [UInt32.toNat_sub_of_le _ _ (by apply UInt32.le_iff_toNat_le.2; rw [own]; exact Nat.le_add_left _ _), own]
        rfl
      · rw [List.getElem?_set_ne same] at found
        have whole := counted index sev found
        rwa [List.countP_cons, if_neg (by simpa using same), Nat.add_zero] at whole

theorem Counted.drained (counted : Counted incoming sevs) :
    Counted [] (incoming.foldl Manager.leaveQueue sevs) := by
  induction incoming generalizing sevs with
  | nil => exact counted
  | cons owned rest ih => exact ih counted.pop

end Steps

section Runs

variable {ingress later : Ingress} {event : ManagerEvent}

theorem ingressStep_eq (stepped : ingressStep ingress event = some later) :
    managerStep ingress.manager event = some later.manager ∧
      later.eventBufferSize = ingress.configured event := by
  obtain ⟨manager, here, rfl⟩ := Option.map_eq_some_iff.1 stepped
  exact ⟨here, rfl⟩

/-- A report that is taken goes to the end of the queue. -/
theorem report_incoming {sevId contextVersion count : UInt16}
    {contextData : List UInt8} {timestamp : Option Protocol.TimestampData} {manager : Manager}
    (known : sevId.toNat < manager.sevs.length) :
    (manager.report sevId contextData contextVersion count timestamp).incoming.length =
      manager.incoming.length + 1 := by
  rw [Manager.report, List.getElem?_eq_getElem known]
  exact List.length_append

theorem QueueLaw.initialized {config : Option Config} (sound : ingress.manager.Sound)
    (law : QueueLaw ingress) (stepped : ingressStep ingress (.init config) = some later) :
    QueueLaw later := by
  obtain ⟨here, size⟩ := ingressStep_eq stepped
  rw [managerStep] at here
  obtain ⟨result, refused, same⟩ | ⟨accepted, sevConfigs, started⟩ := init_cases ingress.manager config
  · rw [same] at here
    dsimp only at here
    rw [if_neg fun both => refused both.1] at here
    have manager := Option.some.inj here
    have kept : later.eventBufferSize = ingress.eventBufferSize := by
      rw [size, Ingress.configured.eq_def]
      cases config with
      | none => rfl
      | some config => exact if_neg (by rw [same]; exact refused)
    exact ⟨by rw [← manager, kept]; exact law.bounded, by rw [← manager]; exact law.counted⟩
  · rw [started] at here
    dsimp only at here
    split at here
    next => cases here
    next single =>
      have manager := Option.some.inj here
      obtain ⟨_, waiting, _⟩ :=
        sound.unused (Bool.eq_false_iff.2 fun joinable => single ⟨rfl, joinable⟩)
      have none : later.manager.incoming = [] := by
        rw [← manager]
        exact waiting
      have table : later.manager.sevs = sevConfigs.map SevState.initial := by rw [← manager]
      refine ⟨by rw [none]; exact Nat.zero_le _, fun index sev found => ?_⟩
      rw [table, List.getElem?_map] at found
      obtain ⟨config, _, rfl⟩ := Option.map_eq_some_iff.1 found
      rw [none]
      rfl

theorem QueueLaw.reported {checked : Bool} {sevId contextVersion count : UInt16}
    {contextData : List UInt8} {timestamp : Option Protocol.TimestampData} (law : QueueLaw ingress)
    (room : FindsRoom ingress (.report checked sevId contextData contextVersion count timestamp))
    (stepped : ingressStep ingress (.report checked sevId contextData contextVersion count timestamp) =
      some later) : QueueLaw later := by
  obtain ⟨here, size⟩ := ingressStep_eq stepped
  cases checked with
  | false =>
      have manager := Option.some.inj here
      exact ⟨by rw [← manager, size]; exact law.bounded, by rw [← manager]; exact law.counted⟩
  | true =>
      have manager := Option.some.inj here
      cases found : ingress.manager.sevs[sevId.toNat]? with
      | none =>
          rw [Manager.report, found] at manager
          exact ⟨by rw [← manager, size]; exact law.bounded, by rw [← manager]; exact law.counted⟩
      | some state =>
          obtain ⟨inside, _⟩ := List.getElem?_eq_some_iff.1 found
          have space := room inside
          have bound := ingress.eventBufferSize.toNat_lt
          have longer := @report_incoming sevId contextVersion count contextData timestamp
            ingress.manager inside
          refine ⟨?_, ?_⟩
          · rw [← manager, size, longer]
            exact space
          · rw [Manager.report, found] at manager
            have pushed := @Counted.push _ _ ⟨sevId, contextData, contextVersion,
              if count = 0 then 1 else count, timestamp⟩ state law.counted found (by omega)
            rw [← manager]
            exact pushed

theorem QueueLaw.step (sound : ingress.manager.Sound) (law : QueueLaw ingress)
    (room : FindsRoom ingress event) (stepped : ingressStep ingress event = some later) :
    QueueLaw later := by
  cases quiet : event.requeues with
  | false =>
      obtain ⟨here, size⟩ := ingressStep_eq stepped
      have kept := queueKept_step quiet here
      have same : later.eventBufferSize = ingress.eventBufferSize := by
        rw [size]
        cases event with
        | init config => cases quiet
        | _ => rfl
      exact ⟨by rw [kept.incoming, same]; exact law.bounded,
        by rw [kept.incoming]; exact law.counted.of_pending kept.pending⟩
  | true =>
      cases event with
      | init config => exact law.initialized sound stepped
      | report checked sevId contextData contextVersion count timestamp =>
          exact law.reported room stepped
      | join =>
          obtain ⟨here, size⟩ := ingressStep_eq stepped
          rw [managerStep] at here
          split at here
          next =>
            have manager := Option.some.inj here
            exact ⟨by rw [← manager]; exact Nat.zero_le _,
              fun index sev found => by rw [← manager] at found; cases found⟩
          next => cases here
      | drain =>
          obtain ⟨here, size⟩ := ingressStep_eq stepped
          rw [managerStep] at here
          split at here
          next =>
            have manager := Option.some.inj here
            exact ⟨by rw [← manager]; exact Nat.zero_le _, by rw [← manager]; exact law.counted.drained⟩
          next => cases here
      | _ => cases quiet

end Runs

/-- The queue stays within the buffer and is counted in every state of a run exactly when no
report finds the buffer full. -/
theorem queue_law_iff {transitions : List (Transition Ingress ManagerEvent)} {last : Ingress}
    (run : Execution ingressStep Ingress.fresh transitions last) :
    (∀ transition ∈ transitions, QueueLaw transition.after) ↔
      ∀ transition ∈ transitions, FindsRoom transition.before transition.event := by
  have sound : ∀ transition ∈ transitions, transition.before.manager.Sound ∧
      ingressStep transition.before transition.event = some transition.after := by
    have keeps : ∀ {ingress : Ingress} {event later}, ingress.manager.Sound → True →
        ingressStep ingress event = some later → later.manager.Sound := fun sound _ stepped =>
      (Manager.Sound.step sound (ingressStep_eq stepped).1).sound
    exact run.forall_transitions keeps (fun sound _ stepped => ⟨sound, stepped⟩)
      Manager.sound_fresh fun _ _ => trivial
  constructor
  · intro lawful transition member
    obtain ⟨here, size⟩ := ingressStep_eq (sound transition member).2
    have law := (lawful transition member).bounded
    cases reported : transition.event with
    | report checked sevId contextData contextVersion count timestamp =>
        cases checked with
        | false => exact trivial
        | true =>
            intro known
            rw [reported] at here size
            have manager := Option.some.inj here
            rw [← manager, report_incoming known, size] at law
            exact law
    | _ => exact trivial
  · intro room
    have keeps : ∀ {ingress event later}, ingress.manager.Sound ∧ QueueLaw ingress →
        FindsRoom ingress event → ingressStep ingress event = some later →
        later.manager.Sound ∧ QueueLaw later := fun invariant room stepped =>
      ⟨(Manager.Sound.step invariant.1 (ingressStep_eq stepped).1).sound,
        invariant.2.step invariant.1 room stepped⟩
    exact run.forall_transitions keeps (fun invariant room stepped =>
      (keeps invariant room stepped).2) ⟨Manager.sound_fresh, Nat.zero_le _, fun _ _ found => by
        cases found⟩ room

/-- A buffer of this size, and two reports of one event before the worker comes. -/
def twoReports (eventBufferSize : UInt32) : List ManagerEvent :=
  [.init (some { configSample 0 with eventBufferSize }), .report true 0 [1] 1 1 none,
    .report true 0 [2] 1 1 none, .wait 1000, .drain]

theorem queue_law_sample :
    ∃ transitions last, execute ingressStep Ingress.fresh (twoReports 2) = some (transitions, last) ∧
      transitions.map (fun transition => transition.after.manager.incoming.length) =
        [0, 1, 2, 2, 0] ∧
      ∀ transition ∈ transitions, QueueLaw transition.after := by
  have ran : execute ingressStep Ingress.fresh (twoReports 2) = some _ := rfl
  refine ⟨_, _, ran, rfl, (queue_law_iff (execution_of_execute ran)).2 ?_⟩
  simp only [List.forall_mem_cons]
  exact ⟨trivial, fun _ => by decide, fun _ => by decide, trivial, trivial, fun _ none => nomatch none⟩

/-- The second report goes into a full buffer of one, and nothing is dropped or counted. -/
theorem queue_exceeds_buffer :
    ∃ transitions last, Execution ingressStep Ingress.fresh transitions last ∧
      ∃ transition ∈ transitions, ¬ QueueLaw transition.after := by
  refine ⟨_, _, execution_of_execute (show execute _ _ (twoReports 1) = _ from rfl), _,
    .tail _ (.tail _ (.head _)), ?_⟩
  intro law
  exact absurd law.bounded (by decide)

end Idsm.IdsM
