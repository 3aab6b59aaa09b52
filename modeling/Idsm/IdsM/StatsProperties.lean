import Idsm.IdsM.Worker

/-! Every accepted event is counted once, as long as no released aggregate is dropped by
the threshold. -/

set_option autoImplicit false

namespace Idsm.IdsM

open Idsm.Foundation
open Idsm.IdsRm (OwnedQSEv)

section Accounting

/-- The events in an open aggregation window. -/
def SevState.held (sev : SevState) : Nat :=
  match sev.aggPending with
  | none => 0
  | some staged => staged.merged + 1

/-- The events that a counter counts, or that left merged into a released aggregate. -/
def Tally.accounted (tally : Tally) : Nat :=
  tally.stats.droppedReportingOff + tally.stats.droppedBlockState + tally.stats.droppedSampling +
    tally.stats.droppedThreshold + tally.stats.eventsQualified + tally.absorbed

/-- The events in the open windows of all. -/
def heldEvents (sevs : List SevState) : Nat := (sevs.map SevState.held).sum

/-- Every accepted event waits, is held in a window, or is accounted for. -/
def Manager.Balanced (manager : Manager) : Prop :=
  manager.tally.stats.eventsReported =
    manager.incoming.length + manager.batch.length + manager.tally.accounted +
      heldEvents manager.sevs

instance (manager : Manager) : Decidable manager.Balanced :=
  inferInstanceAs (Decidable (_ = _))

/-- A step over one event's state takes in this many events and loses none. -/
structure Accounts (taken : Nat) (sev : SevState) (tally : Tally) (later : SevState × Tally) :
    Prop where
  events : later.2.accounted + later.2.vanished + later.1.held =
    tally.accounted + tally.vanished + sev.held + taken
  reported : later.2.stats.eventsReported = tally.stats.eventsReported

variable {sinks : Sinks} {sev : SevState} {tally : Tally} {nowMs : UInt32}

theorem passForwardEveryNth_aggPending (sev : SevState) (count : UInt16) :
    (passForwardEveryNth sev count).2.aggPending = sev.aggPending := by
  unfold passForwardEveryNth
  dsimp only
  split
  · rfl
  · split
    · rfl
    · rfl

theorem passThreshold_aggPending (sev : SevState) (count : UInt16) (nowMs : UInt32) :
    (passThreshold sev count nowMs).2.aggPending = sev.aggPending := by
  unfold passThreshold
  dsimp only
  split
  · rfl
  · cases sev.thrWindowOpen with
    | true => rfl
    | false => rfl

theorem held_of_aggPending {other : SevState} (same : other.aggPending = sev.aggPending) :
    other.held = sev.held := by
  rw [SevState.held, SevState.held, same]

/-- An event enters the window, or passes a filter that is not configured. -/
theorem passAggregation_cases (sev : SevState) (qsev : OwnedQSEv) (nowMs : UInt32) :
    passAggregation sev qsev nowMs = (true, sev) ∨
    ∃ later, passAggregation sev qsev nowMs = (false, later) ∧ later.held = sev.held + 1 := by
  unfold passAggregation
  split
  · exact .inl rfl
  · cases pending : sev.aggPending with
    | none =>
        refine .inr ⟨_, rfl, ?_⟩
        rw [SevState.held, SevState.held, pending]
    | some staged =>
        refine .inr ⟨_, rfl, ?_⟩
        rw [SevState.held, SevState.held, pending]

theorem dispatchQsev_frame (config : SecurityEventConfig) (qsev : OwnedQSEv) (tally : Tally) :
    (dispatchQsev sinks config qsev tally).accounted = tally.accounted ∧
      (dispatchQsev sinks config qsev tally).vanished = tally.vanished ∧
      (dispatchQsev sinks config qsev tally).stats.eventsReported = tally.stats.eventsReported := by
  unfold dispatchQsev
  cases config.sinkToDem && sinks.dem with
  | true =>
      cases config.sinkToIdsr && sinks.idsr with
      | true => exact ⟨rfl, rfl, rfl⟩
      | false => exact ⟨rfl, rfl, rfl⟩
  | false =>
      cases config.sinkToIdsr && sinks.idsr with
      | true => exact ⟨rfl, rfl, rfl⟩
      | false => exact ⟨rfl, rfl, rfl⟩

theorem qualify_frame (config : SecurityEventConfig) (qsev : OwnedQSEv) (tally : Tally) :
    (qualify sinks config qsev tally).accounted = tally.accounted + 1 ∧
      (qualify sinks config qsev tally).vanished = tally.vanished ∧
      (qualify sinks config qsev tally).stats.eventsReported = tally.stats.eventsReported := by
  unfold qualify
  obtain ⟨accounted, vanished, reported⟩ := @dispatchQsev_frame sinks config qsev
    { tally with stats := { tally.stats with eventsQualified := tally.stats.eventsQualified + 1 } }
  refine ⟨?_, vanished, reported⟩
  rw [accounted]
  simp only [Tally.accounted]
  omega

/-- The threshold lets the aggregate of this state through. -/
def ReleasePasses (nowMs : UInt32) (sev : SevState) (staged : StagedQSEv) : Prop :=
  (passThreshold sev staged.qsev.count nowMs).1 = true

theorem passThreshold_fst_frame (sev : SevState) (count : UInt16) (nowMs : UInt32) :
    (passThreshold { sev with aggPending := none, aggHasContext := false } count nowMs).1 =
      (passThreshold sev count nowMs).1 := by
  unfold passThreshold
  dsimp only
  split
  · rfl
  · cases sev.thrWindowOpen with
    | true => rfl
    | false => rfl

theorem release_accounts {staged : StagedQSEv} (pending : sev.aggPending = some staged) :
    Accounts 0 sev tally (release sinks sev staged nowMs tally) ∧
      (ReleasePasses nowMs sev staged ∧
          (release sinks sev staged nowMs tally).2.vanished = tally.vanished ∨
        ¬ ReleasePasses nowMs sev staged ∧
          (release sinks sev staged nowMs tally).2.vanished = tally.vanished + 1) := by
  have empty := passThreshold_aggPending { sev with aggPending := none, aggHasContext := false }
    staged.qsev.count nowMs
  have held : sev.held = staged.merged + 1 := by rw [SevState.held, pending]
  unfold release ReleasePasses
  rw [← passThreshold_fst_frame sev staged.qsev.count nowMs]
  dsimp only
  generalize passThreshold { sev with aggPending := none, aggHasContext := false } staged.qsev.count
    nowMs = result at empty
  obtain ⟨passes, later⟩ := result
  have gone : later.held = 0 := by rw [SevState.held, show later.aggPending = none from empty]
  cases passes with
  | true =>
      obtain ⟨accounted, vanished, reported⟩ := @qualify_frame sinks later.config staged.qsev
        { tally with absorbed := tally.absorbed + staged.merged }
      have grown : ({ tally with absorbed := tally.absorbed + staged.merged } : Tally).accounted =
          tally.accounted + staged.merged := by
        simp only [Tally.accounted]
        omega
      refine ⟨⟨?_, reported⟩, .inl ⟨rfl, vanished⟩⟩
      simp only [if_true, accounted, vanished, gone, held, grown]
      omega
  | false =>
      refine ⟨⟨?_, rfl⟩, .inr ⟨by simp, rfl⟩⟩
      simp only [Bool.false_eq_true, if_false, gone, held, Tally.accounted]
      omega

theorem filterChain_accounts {blockState : UInt8} {qsev : OwnedQSEv} {clock : Clock} :
    Accounts 1 sev tally (filterChain sinks blockState sev qsev clock tally) ∧
      (filterChain sinks blockState sev qsev clock tally).2.vanished = tally.vanished := by
  unfold filterChain
  dsimp only
  split
  next blocked =>
    refine ⟨⟨?_, rfl⟩, rfl⟩
    simp only [Tally.accounted]
    omega
  next =>
    have nth := held_of_aggPending (passForwardEveryNth_aggPending sev qsev.count)
    generalize passForwardEveryNth sev qsev.count = sampled at nth
    obtain ⟨passes, sampledSev⟩ := sampled
    cases passes with
    | false =>
        refine ⟨⟨?_, rfl⟩, rfl⟩
        simp only [Tally.accounted] at nth ⊢
        omega
    | true =>
        dsimp only
        obtain unused | ⟨later, entered, held⟩ :=
          passAggregation_cases sampledSev qsev clock.stagedMs
        · rw [unused]
          dsimp only
          have threshold := held_of_aggPending
            (passThreshold_aggPending sampledSev qsev.count clock.nowMs)
          generalize passThreshold sampledSev qsev.count clock.nowMs = decided at threshold
          obtain ⟨passes, later⟩ := decided
          cases passes with
          | false =>
              refine ⟨⟨?_, rfl⟩, rfl⟩
              simp only [Tally.accounted] at nth threshold ⊢
              omega
          | true =>
              obtain ⟨accounted, vanished, reported⟩ := @qualify_frame sinks later.config qsev tally
              refine ⟨⟨?_, reported⟩, vanished⟩
              simp only [accounted, vanished] at nth threshold ⊢
              omega
        · rw [entered]
          refine ⟨⟨?_, rfl⟩, rfl⟩
          simp only [held] at nth ⊢
          omega

theorem processSev_accounts {instanceId : UInt16} {blockState : UInt8} {clock : Clock}
    {event : OwnedSEv} :
    Accounts 1 sev tally (processSev sinks instanceId blockState clock event sev tally) ∧
      (processSev sinks instanceId blockState clock event sev tally).2.vanished = tally.vanished := by
  unfold processSev
  split
  next off =>
    refine ⟨⟨?_, rfl⟩, rfl⟩
    simp only [Tally.accounted]
    omega
  next =>
    dsimp only
    split
    next =>
      obtain ⟨accounted, vanished, reported⟩ := @qualify_frame sinks sev.config
        (buildQsev instanceId { sev with detectionStatus := .violation } event clock.internal) tally
      refine ⟨⟨?_, reported⟩, vanished⟩
      simp only [accounted, vanished]
      change _ + 1 + _ + sev.held = _
      omega
    next =>
      obtain ⟨chain, vanished⟩ := @filterChain_accounts sinks
        { sev with detectionStatus := .violation } tally blockState
        (buildQsev instanceId { sev with detectionStatus := .violation } event clock.internal) clock
      exact ⟨⟨chain.events, chain.reported⟩, vanished⟩

/-- The aggregates that are due pass the threshold. -/
def DuePass (nowMs : UInt32) (sev : SevState) : Prop :=
  ∀ staged, dueAggregate nowMs sev = some staged → ReleasePasses nowMs sev staged

theorem expireThreshold_aggPending (nowMs : UInt32) (sev : SevState) (nextDeadline : UInt32) :
    (expireThreshold nowMs sev nextDeadline).1.aggPending = sev.aggPending := by
  unfold expireThreshold
  dsimp only
  split
  · split
    · rfl
    · rfl
  · rfl

theorem expireWindow_accounts {nextDeadline : UInt32} :
    Accounts 0 sev tally ((expireWindow sinks nowMs sev tally nextDeadline).1,
        (expireWindow sinks nowMs sev tally nextDeadline).2.1) ∧
      (DuePass nowMs sev ∧
          (expireWindow sinks nowMs sev tally nextDeadline).2.1.vanished = tally.vanished ∨
        ¬ DuePass nowMs sev ∧
          (expireWindow sinks nowMs sev tally nextDeadline).2.1.vanished = tally.vanished + 1) := by
  unfold expireWindow DuePass
  cases due : dueAggregate nowMs sev with
  | some staged =>
      have pending : sev.aggPending = some staged := by
        unfold dueAggregate at due
        split at due
        · exact due
        · exact nomatch due
      obtain ⟨accounts, passed | dropped⟩ :=
        @release_accounts sinks sev tally nowMs staged pending
      · exact ⟨accounts, .inl ⟨fun _ same => Option.some.inj same ▸ passed.1, passed.2⟩⟩
      · exact ⟨accounts, .inr ⟨fun all => dropped.1 (all staged rfl), dropped.2⟩⟩
  | none =>
      have held := held_of_aggPending
        (expireThreshold_aggPending nowMs sev (aggregationDeadline sev nextDeadline))
      refine ⟨⟨?_, rfl⟩, .inl ⟨by simp, rfl⟩⟩
      simp only [held]
      omega

/-- Over all events: nothing is lost but the aggregates that a threshold drops. -/
theorem expireWindows_accounts (nowMs : UInt32) (sevs : List SevState) (tally : Tally)
    (nextDeadline : UInt32) :
    let result := expireWindows sinks nowMs sevs tally nextDeadline
    result.2.1.accounted + result.2.1.vanished + heldEvents result.1 =
        tally.accounted + tally.vanished + heldEvents sevs ∧
      result.2.1.stats.eventsReported = tally.stats.eventsReported ∧
      result.1.length = sevs.length ∧
      ((∀ sev ∈ sevs, DuePass nowMs sev) ∧ result.2.1.vanished = tally.vanished ∨
        ¬ (∀ sev ∈ sevs, DuePass nowMs sev) ∧ tally.vanished < result.2.1.vanished) := by
  induction sevs generalizing tally nextDeadline with
  | nil => exact ⟨rfl, rfl, rfl, .inl ⟨by simp, rfl⟩⟩
  | cons sev rest ih =>
      obtain ⟨⟨events, reported⟩, vanished⟩ := @expireWindow_accounts sinks sev tally nowMs nextDeadline
      rw [expireWindows]
      generalize expireWindow sinks nowMs sev tally nextDeadline = here at events reported vanished
      obtain ⟨sev', tally', deadline'⟩ := here
      have later := ih tally' deadline'
      dsimp only at later ⊢
      generalize expireWindows sinks nowMs rest tally' deadline' = remaining at later
      obtain ⟨rest', tally'', deadline''⟩ := remaining
      obtain ⟨restEvents, restReported, length, restVanished⟩ := later
      dsimp only at events reported vanished restEvents restReported length restVanished ⊢
      refine ⟨?_, restReported.trans reported, congrArg (· + 1) length, ?_⟩
      · simp only [heldEvents, List.map_cons, List.sum_cons] at restEvents ⊢
        omega
      · rw [List.forall_mem_cons]
        obtain ⟨pass, same⟩ | ⟨fail, more⟩ := vanished
        · obtain ⟨passes, sames⟩ | ⟨fails, mores⟩ := restVanished
          · exact .inl ⟨⟨pass, passes⟩, sames.trans same⟩
          · exact .inr ⟨fun all => fails all.2, same ▸ mores⟩
        · refine .inr ⟨fun all => fail all.1, ?_⟩
          obtain ⟨_, sames⟩ | ⟨_, mores⟩ := restVanished
          · omega
          · omega

theorem heldEvents_set {sevs : List SevState} {index : Nat} (here : sevs[index]? = some sev)
    (later : SevState) :
    heldEvents (sevs.set index later) + sev.held = heldEvents sevs + later.held := by
  induction sevs generalizing index with
  | nil => exact nomatch here
  | cons first rest ih =>
      cases index with
      | zero =>
          obtain rfl := Option.some.inj here
          simp only [heldEvents, List.set_cons_zero, List.map_cons, List.sum_cons]
          omega
      | succ index =>
          have tail := @ih index here
          simp only [heldEvents, List.set_cons_succ, List.map_cons, List.sum_cons] at tail ⊢
          omega

end Accounting

section Runs

/-- Every release of an aggregate in this step passes the threshold. -/
def ReleasesPass (manager : Manager) : ManagerEvent → Prop
  | .flushEvents sevId nowMs => ∀ sev staged, manager.sevs[sevId.toNat]? = some sev →
      sev.aggPending = some staged → ReleasePasses nowMs sev staged
  | .wait nowMs => manager.incoming = [] → ∀ sev ∈ manager.sevs, DuePass nowMs sev
  | .expire nowMs => ∀ sev ∈ manager.sevs, DuePass nowMs sev
  | _ => True

/-- What holds in every state: the exact account, with the dropped aggregates, and where
events can wait. -/
structure Manager.Sound (manager : Manager) : Prop where
  events : manager.tally.stats.eventsReported =
    manager.incoming.length + manager.batch.length + manager.tally.accounted +
      manager.tally.vanished + heldEvents manager.sevs
  known : ∀ sev ∈ manager.incoming ++ manager.batch,
    sev.securityEventId.toNat < manager.sevs.length
  resting : manager.worker ≠ .process → manager.batch = []
  unused : manager.joinable = false →
    manager.sevs = [] ∧ manager.incoming = [] ∧ manager.batch = []

variable {manager later : Manager}

theorem Manager.Sound.balanced_iff (sound : manager.Sound) :
    manager.Balanced ↔ manager.tally.vanished = 0 := by
  have events := sound.events
  unfold Manager.Balanced
  constructor
  · intro balanced
    omega
  · intro none
    omega

theorem Manager.sound_fresh : Manager.fresh.Sound where
  events := rfl
  known := fun _ impossible => nomatch impossible
  resting := fun _ => rfl
  unused := fun _ => ⟨rfl, rfl, rfl⟩

/-- A step over one event's state, with this many events of the batch. -/
theorem Manager.Sound.setSev {sevId : UInt16} {sev : SevState} {result : SevState × Tally}
    {taken : Nat} {batch : List OwnedSEv} (sound : manager.Sound)
    (here : manager.sevs[sevId.toNat]? = some sev)
    (accounts : Accounts taken sev manager.tally result)
    (length : manager.batch.length = batch.length + taken) (fewer : batch ⊆ manager.batch) :
    Manager.Sound { manager.setSev sevId result.1 with tally := result.2, batch } := by
  have held := heldEvents_set here result.1
  have events := sound.events
  have step := accounts.events
  refine ⟨?_, ?_, ?_, ?_⟩
  · change result.2.stats.eventsReported = manager.incoming.length + batch.length +
      result.2.accounted + result.2.vanished + heldEvents (manager.sevs.set sevId.toNat result.1)
    rw [accounts.reported]
    omega
  · intro event member
    change _ < (manager.sevs.set sevId.toNat result.1).length
    rw [List.length_set]
    obtain waiting | local_ := List.mem_append.mp member
    · exact sound.known event (List.mem_append_left _ waiting)
    · exact sound.known event (List.mem_append_right _ (fewer local_))
  · intro resting
    have empty := sound.resting resting
    rw [empty, List.length_nil] at length
    have zero : batch.length = 0 := by omega
    exact List.eq_nil_of_length_eq_zero zero
  · intro unjoined
    obtain ⟨none, _⟩ := sound.unused unjoined
    rw [none] at here
    exact nomatch here

/-- The step is sound, and drops an aggregate exactly when a release does not pass. -/
structure Accounted (manager : Manager) (event : ManagerEvent) (later : Manager) : Prop where
  sound : later.Sound
  vanished : ReleasesPass manager event ∧ later.tally.vanished ≤ manager.tally.vanished ∨
    ¬ ReleasesPass manager event ∧ manager.tally.vanished < later.tally.vanished

theorem Accounted.same {event : ManagerEvent} (sound : manager.Sound)
    (passes : ReleasesPass manager event) : Accounted manager event manager :=
  ⟨sound, .inl ⟨passes, Nat.le_refl _⟩⟩

theorem heldEvents_initial (sevConfigs : List SecurityEventConfig) :
    heldEvents (sevConfigs.map SevState.initial) = 0 := by
  induction sevConfigs with
  | nil => rfl
  | cons config rest ih =>
      rw [heldEvents, List.map_cons, List.map_cons, List.sum_cons]
      exact (Nat.zero_add _).trans ih

/-- `Init` refuses and changes nothing, or starts with the accepted configurations. -/
theorem init_cases (manager : Manager) (config : Option Config) :
    (∃ result, result ≠ .ok ∧ manager.init config = (result, manager)) ∨
    ∃ (accepted : Config) (sevConfigs : List SecurityEventConfig), manager.init config = (.ok, { manager with
      sevs := sevConfigs.map SevState.initial
      idsmInstanceId := accepted.idsmInstanceId
      mainFunctionPeriodMs := accepted.mainFunctionPeriodMs
      blockState := 0
      tally := .zero
      running := true
      joinable := true
      worker := .wait }) := by
  unfold Manager.init
  cases config with
  | none => exact .inl ⟨.paramPointer, by simp, rfl⟩
  | some config =>
      dsimp only
      cases config.configs with
      | none => exact .inl ⟨.paramPointer, by simp, rfl⟩
      | some sevConfigs =>
          dsimp only
          split
          · exact .inr ⟨config, sevConfigs, rfl⟩
          · exact .inl ⟨.paramConfig, by simp, rfl⟩

theorem Manager.Sound.init {config : Option Config} (sound : manager.Sound)
    (stepped : managerStep manager (.init config) = some later) :
    Accounted manager (.init config) later := by
  rw [managerStep] at stepped
  obtain ⟨result, refused, same⟩ | ⟨accepted, sevConfigs, started⟩ := init_cases manager config
  · rw [same] at stepped
    dsimp only at stepped
    rw [if_neg fun both => refused both.1] at stepped
    obtain rfl := Option.some.inj stepped
    exact .same sound trivial
  · rw [started] at stepped
    dsimp only at stepped
    split at stepped
    next => exact nomatch stepped
    next single =>
      obtain rfl := Option.some.inj stepped
      obtain ⟨_, waiting, local_⟩ :=
        sound.unused (Bool.eq_false_iff.mpr fun joinable => single ⟨rfl, joinable⟩)
      refine ⟨⟨?_, ?_, fun _ => local_, fun impossible => nomatch impossible⟩,
        .inl ⟨trivial, Nat.zero_le _⟩⟩
      · change 0 = manager.incoming.length + manager.batch.length + 0 + 0 +
          heldEvents (sevConfigs.map SevState.initial)
        rw [waiting, local_, heldEvents_initial]
        rfl
      · intro sev member
        change sev ∈ manager.incoming ++ manager.batch at member
        rw [waiting, local_] at member
        exact nomatch member

theorem Manager.Sound.join (sound : manager.Sound)
    (stepped : managerStep manager .join = some later) : Accounted manager .join later := by
  rw [managerStep] at stepped
  split at stepped
  next ready =>
    obtain rfl := Option.some.inj stepped
    have empty : manager.batch = [] := by
      cases joinable : manager.joinable with
      | false => exact (sound.unused joinable).2.2
      | true =>
          apply sound.resting
          intro processing
          have done := ready.2 joinable
          rw [Manager.finished, processing] at done
          exact nomatch done
    refine ⟨⟨?_, ?_, fun _ => empty, fun _ => ⟨rfl, rfl, empty⟩⟩, .inl ⟨trivial, Nat.zero_le _⟩⟩
    · change 0 = 0 + manager.batch.length + 0 + 0 + 0
      rw [empty]
      rfl
    · intro sev member
      change sev ∈ [] ++ manager.batch at member
      rw [empty] at member
      exact nomatch member
  next => exact nomatch stepped

theorem Manager.Sound.report {checked : Bool} {sevId contextVersion count : UInt16}
    {contextData : List UInt8} {timestamp : Option Protocol.TimestampData} (sound : manager.Sound)
    (stepped : managerStep manager
      (.report checked sevId contextData contextVersion count timestamp) = some later) :
    Accounted manager (.report checked sevId contextData contextVersion count timestamp) later := by
  rw [managerStep] at stepped
  split at stepped
  next =>
    obtain rfl := Option.some.inj stepped
    unfold Manager.report
    cases here : manager.sevs[sevId.toNat]? with
    | none => exact .same sound trivial
    | some sev =>
        have held := heldEvents_set here { sev with pendingCount := sev.pendingCount + 1 }
        obtain ⟨inside, _⟩ := List.getElem?_eq_some_iff.mp here
        have events := sound.events
        refine ⟨⟨?_, ?_, sound.resting, ?_⟩, .inl ⟨trivial, Nat.le_refl _⟩⟩
        · change manager.tally.stats.eventsReported + 1 = (manager.incoming ++ [_]).length +
            manager.batch.length + manager.tally.accounted + manager.tally.vanished +
            heldEvents (manager.sevs.set sevId.toNat { sev with pendingCount := sev.pendingCount + 1 })
          rw [List.length_append, List.length_singleton]
          change _ + sev.held = _ + sev.held at held
          omega
        · intro event member
          change _ < (manager.sevs.set sevId.toNat _).length
          rw [List.length_set]
          obtain waiting | local_ := List.mem_append.mp member
          · obtain old | new := List.mem_append.mp waiting
            · exact sound.known event (List.mem_append_left _ old)
            · rw [List.mem_singleton.mp new]
              exact inside
          · exact sound.known event (List.mem_append_right _ local_)
        · intro unjoined
          rw [(sound.unused unjoined).1] at here
          exact nomatch here
  next =>
    obtain rfl := Option.some.inj stepped
    exact .same sound trivial

/-- A change of one event's state that leaves its window alone. -/
theorem Manager.Sound.replace {sevId : UInt16} {sev other : SevState} (sound : manager.Sound)
    (here : manager.sevs[sevId.toNat]? = some sev) (same : other.held = sev.held) :
    (manager.setSev sevId other).Sound :=
  @Manager.Sound.setSev manager sevId sev (other, manager.tally) 0 manager.batch sound here
    ⟨by rw [same, Nat.add_zero], rfl⟩ rfl (List.Subset.refl _)

theorem Manager.Sound.setReportingMode {sevId : UInt16} {mode : Nat} (sound : manager.Sound)
    (stepped : managerStep manager (.setReportingMode sevId mode) = some later) :
    Accounted manager (.setReportingMode sevId mode) later := by
  obtain rfl := Option.some.inj stepped
  unfold Manager.setReportingMode
  cases ReportingMode.ofRaw mode with
  | none => exact .same sound trivial
  | some decoded =>
      cases here : manager.sevs[sevId.toNat]? with
      | none => exact .same sound trivial
      | some sev => exact ⟨sound.replace here rfl, .inl ⟨trivial, Nat.le_refl _⟩⟩

theorem Manager.Sound.resetDetectionStatus {sevId : UInt16} (sound : manager.Sound)
    (stepped : managerStep manager (.resetDetectionStatus sevId) = some later) :
    Accounted manager (.resetDetectionStatus sevId) later := by
  obtain rfl := Option.some.inj stepped
  unfold Manager.resetDetectionStatus
  cases here : manager.sevs[sevId.toNat]? with
  | none => exact .same sound trivial
  | some sev => exact ⟨sound.replace here rfl, .inl ⟨trivial, Nat.le_refl _⟩⟩

theorem Manager.Sound.flushEvents {sevId : UInt16} {nowMs : UInt32} (sound : manager.Sound)
    (stepped : managerStep manager (.flushEvents sevId nowMs) = some later) :
    Accounted manager (.flushEvents sevId nowMs) later := by
  obtain rfl := Option.some.inj stepped
  unfold Manager.flushEvents
  cases here : manager.sevs[sevId.toNat]? with
  | none =>
      refine .same sound fun sev staged found => ?_
      rw [here] at found
      exact nomatch found
  | some sev =>
      dsimp only
      cases pending : sev.aggPending with
      | none =>
          refine .same sound fun other staged found aggregated => ?_
          obtain rfl := Option.some.inj (here.symm.trans found)
          rw [pending] at aggregated
          exact nomatch aggregated
      | some staged =>
          obtain ⟨accounts, vanished⟩ :=
            @release_accounts manager.sinks sev manager.tally nowMs staged pending
          refine ⟨sound.setSev here accounts rfl (List.Subset.refl _), ?_⟩
          obtain ⟨passes, same⟩ | ⟨fails, more⟩ := vanished
          · refine .inl ⟨fun other released found aggregated => ?_, same.le⟩
            obtain rfl := Option.some.inj (here.symm.trans found)
            obtain rfl := Option.some.inj (pending.symm.trans aggregated)
            exact passes
          · exact .inr ⟨fun all => fails (all sev staged here pending),
              (Nat.lt_succ_self _).trans_eq more.symm⟩

theorem Manager.Sound.expire {nowMs : UInt32} (sound : manager.Sound) :
    (manager.expire nowMs).2.Sound ∧
      ((∀ sev ∈ manager.sevs, DuePass nowMs sev) ∧
          (manager.expire nowMs).2.tally.vanished = manager.tally.vanished ∨
        ¬ (∀ sev ∈ manager.sevs, DuePass nowMs sev) ∧
          manager.tally.vanished < (manager.expire nowMs).2.tally.vanished) := by
  obtain ⟨step, reported, length, vanished⟩ :=
    @expireWindows_accounts manager.sinks nowMs manager.sevs manager.tally 0
  refine ⟨⟨?_, ?_, sound.resting, ?_⟩, vanished⟩
  · have events := sound.events
    change (expireWindows manager.sinks nowMs manager.sevs manager.tally 0).2.1.stats.eventsReported =
      manager.incoming.length + manager.batch.length +
        (expireWindows manager.sinks nowMs manager.sevs manager.tally 0).2.1.accounted +
        (expireWindows manager.sinks nowMs manager.sevs manager.tally 0).2.1.vanished +
        heldEvents (expireWindows manager.sinks nowMs manager.sevs manager.tally 0).1
    omega
  · intro sev member
    exact (sound.known sev member).trans_eq length.symm
  · intro unjoined
    obtain ⟨none, empty⟩ := sound.unused unjoined
    exact ⟨List.eq_nil_of_length_eq_zero (length.trans (congrArg List.length none)), empty⟩

theorem leaveQueue_frame (sevs : List SevState) (sev : OwnedSEv) :
    (Manager.leaveQueue sevs sev).length = sevs.length ∧
      heldEvents (Manager.leaveQueue sevs sev) = heldEvents sevs := by
  unfold Manager.leaveQueue
  cases here : sevs[sev.securityEventId.toNat]? with
  | none => exact ⟨rfl, rfl⟩
  | some state =>
      dsimp only
      split
      · have held := heldEvents_set here { state with pendingCount := state.pendingCount - 1 }
        refine ⟨List.length_set, ?_⟩
        change _ + state.held = _ + state.held at held
        omega
      · exact ⟨rfl, rfl⟩

theorem leaveQueues_frame (incoming : List OwnedSEv) (sevs : List SevState) :
    (incoming.foldl Manager.leaveQueue sevs).length = sevs.length ∧
      heldEvents (incoming.foldl Manager.leaveQueue sevs) = heldEvents sevs := by
  induction incoming generalizing sevs with
  | nil => exact ⟨rfl, rfl⟩
  | cons sev rest ih =>
      obtain ⟨length, held⟩ := leaveQueue_frame sevs sev
      obtain ⟨restLength, restHeld⟩ := ih (Manager.leaveQueue sevs sev)
      exact ⟨restLength.trans length, restHeld.trans held⟩

theorem Manager.Sound.drain (sound : manager.Sound)
    (stepped : managerStep manager .drain = some later) : Accounted manager .drain later := by
  rw [managerStep] at stepped
  split at stepped
  next ready =>
    obtain rfl := Option.some.inj stepped
    have empty : manager.batch = [] := sound.resting (by rw [ready.2]; simp)
    obtain ⟨length, held⟩ := leaveQueues_frame manager.incoming manager.sevs
    have events := sound.events
    refine ⟨⟨?_, ?_, fun impossible => absurd rfl impossible, ?_⟩, .inl ⟨trivial, Nat.le_refl _⟩⟩
    · change manager.tally.stats.eventsReported = 0 + manager.incoming.length +
        manager.tally.accounted + manager.tally.vanished +
        heldEvents (manager.incoming.foldl Manager.leaveQueue manager.sevs)
      rw [empty, List.length_nil] at events
      omega
    · intro sev member
      change _ < (manager.incoming.foldl Manager.leaveQueue manager.sevs).length
      rw [length]
      exact sound.known sev (List.mem_append_left _ member)
    · intro unjoined
      exact absurd (ready.1.symm.trans unjoined) (by simp)
  next => exact nomatch stepped

theorem Manager.Sound.process {clock : Clock} (sound : manager.Sound)
    (stepped : managerStep manager (.process clock) = some later) :
    Accounted manager (.process clock) later := by
  rw [managerStep] at stepped
  split at stepped
  next ready =>
    cases queued : manager.batch with
    | nil =>
        have kept : Manager.Sound { manager with worker := .expire } :=
          ⟨sound.events, sound.known, fun _ => queued, sound.unused⟩
        rw [queued] at stepped kept
        obtain rfl := Option.some.inj stepped
        exact ⟨kept, .inl ⟨trivial, Nat.le_refl _⟩⟩
    | cons sev rest =>
        rw [queued] at stepped
        obtain rfl := Option.some.inj stepped
        have inside := sound.known sev (by rw [queued]; simp)
        have here := List.getElem?_eq_getElem inside
        generalize manager.sevs[sev.securityEventId.toNat] = state at here
        obtain ⟨accounts, vanished⟩ := @processSev_accounts manager.sinks state manager.tally
          manager.idsmInstanceId manager.blockState clock sev
        have kept := sound.setSev here accounts (by rw [queued]; rfl)
          (by rw [queued]; exact List.subset_cons_self sev rest)
        unfold Manager.processEvent
        rw [here]
        exact ⟨kept, .inl ⟨trivial, vanished.le⟩⟩
  next => exact nomatch stepped

theorem Manager.Sound.wait {nowMs : UInt32} (sound : manager.Sound)
    (stepped : managerStep manager (.wait nowMs) = some later) :
    Accounted manager (.wait nowMs) later := by
  rw [managerStep] at stepped
  split at stepped
  next ready =>
    obtain rfl := Option.some.inj stepped
    have empty : manager.batch = [] := sound.resting (by rw [ready.2]; simp)
    by_cases none : manager.incoming = []
    · obtain ⟨kept, vanished⟩ := @Manager.Sound.expire manager nowMs sound
      rw [if_pos none]
      refine ⟨⟨kept.events, kept.known, fun _ => empty, kept.unused⟩, ?_⟩
      obtain ⟨pass, same⟩ | ⟨fail, more⟩ := vanished
      · exact .inl ⟨fun _ => pass, same.le⟩
      · exact .inr ⟨fun all => fail (all none), more⟩
    · rw [if_neg none]
      exact ⟨⟨sound.events, sound.known, fun _ => empty, sound.unused⟩,
        .inl ⟨fun impossible => absurd impossible none, Nat.le_refl _⟩⟩
  next => exact nomatch stepped

theorem Manager.Sound.step {event : ManagerEvent} (sound : manager.Sound)
    (stepped : managerStep manager event = some later) : Accounted manager event later := by
  cases event with
  | init config => exact sound.init stepped
  | join => exact sound.join stepped
  | report checked sevId contextData contextVersion count timestamp => exact sound.report stepped
  | setReportingMode sevId mode => exact sound.setReportingMode stepped
  | resetDetectionStatus sevId => exact sound.resetDetectionStatus stepped
  | flushEvents sevId nowMs => exact sound.flushEvents stepped
  | wait nowMs => exact sound.wait stepped
  | drain => exact sound.drain stepped
  | process clock => exact sound.process stepped
  | expire nowMs =>
      rw [managerStep] at stepped
      split at stepped
      next ready =>
        obtain rfl := Option.some.inj stepped
        have empty : manager.batch = [] := sound.resting (by rw [ready.2]; simp)
        obtain ⟨kept, vanished⟩ := @Manager.Sound.expire manager nowMs sound
        refine ⟨⟨kept.events, kept.known, fun _ => empty, kept.unused⟩, ?_⟩
        obtain ⟨pass, same⟩ | ⟨fail, more⟩ := vanished
        · exact .inl ⟨pass, same.le⟩
        · exact .inr ⟨fail, more⟩
      next => exact nomatch stepped
  | _ =>
      obtain rfl := Option.some.inj stepped
      exact ⟨⟨sound.events, sound.known, sound.resting, sound.unused⟩,
        .inl ⟨trivial, Nat.le_refl _⟩⟩

end Runs

/-- The counters balance in every state of a run exactly when every release passes. -/
theorem manager_balanced_iff {transitions : List (Transition Manager ManagerEvent)} {last : Manager}
    (run : Execution managerStep Manager.fresh transitions last) :
    (∀ transition ∈ transitions, transition.after.Balanced) ↔
      ∀ transition ∈ transitions, ReleasesPass transition.before transition.event := by
  constructor
  · intro balanced
    have accounted : ∀ transition ∈ transitions, Accounted transition.before transition.event
        transition.after :=
      run.forall_transitions (fun sound (_ : True) stepped => (Manager.Sound.step sound stepped).sound)
        (fun sound _ stepped => Manager.Sound.step sound stepped) Manager.sound_fresh
        fun _ _ => trivial
    intro transition member
    obtain ⟨sound, ⟨passes, _⟩ | ⟨_, more⟩⟩ := accounted transition member
    · exact passes
    · have none := sound.balanced_iff.1 (balanced transition member)
      omega
  · intro passes
    have keeps : ∀ {manager event later}, manager.Sound ∧ manager.tally.vanished = 0 →
        ReleasesPass manager event → managerStep manager event = some later →
        later.Sound ∧ later.tally.vanished = 0 := by
      intro manager event later invariant passes stepped
      obtain ⟨sound, ⟨_, fewer⟩ | ⟨fails, _⟩⟩ := invariant.1.step stepped
      · exact ⟨sound, Nat.le_zero.mp (fewer.trans_eq invariant.2)⟩
      · exact absurd passes fails
    exact run.forall_transitions keeps
      (fun invariant passes stepped =>
        have later := keeps invariant passes stepped
        later.1.balanced_iff.mpr later.2) ⟨Manager.sound_fresh, rfl⟩ passes

/-! An aggregating event behind a threshold of two. -/

def configSample (threshold : UInt16) : Config where
  idsmInstanceId := 1
  mainFunctionPeriodMs := 10
  sevCount := 1
  sevConfigs := some [⟨0x8001, 0, .low, 2, none, 0, 20, ⟨threshold, 100⟩, true, true⟩]
  eventBufferSize := 128

def clockSample (nowMs : UInt32) : Clock := ⟨nowMs, nowMs, ⟨0, 0, .autosar⟩⟩

/-- One event is reported, staged, and released by a flush. -/
def flushedRun (threshold : UInt16) : List ManagerEvent :=
  [.init (some (configSample threshold)), .report true 0 [1] 1 1 none, .wait 1000, .drain,
    .process (clockSample 1000), .process (clockSample 1000), .expire 1001, .flushEvents 0 1002]

theorem manager_balanced_sample :
    ∃ transitions last, execute managerStep Manager.fresh (flushedRun 1) = some (transitions, last) ∧
      last.tally.stats.eventsQualified = 1 ∧
      ∀ transition ∈ transitions, transition.after.Balanced := by
  have ran : execute managerStep Manager.fresh (flushedRun 1) = some _ := rfl
  refine ⟨_, _, ran, rfl, (manager_balanced_iff (execution_of_execute ran)).mpr ?_⟩
  simp only [List.forall_mem_cons]
  refine ⟨trivial, trivial, ?_, trivial, trivial, trivial, ?_, ?_, fun _ none => nomatch none⟩
  · intro impossible
    exact nomatch impossible
  · intro sev member staged due
    obtain rfl := List.mem_singleton.mp member
    exact nomatch due
  · intro sev staged here pending
    obtain rfl := Option.some.inj here
    obtain rfl := Option.some.inj pending
    exact show true = true from rfl

/-- The threshold drops the aggregate, and no counter counts it. -/
theorem manager_loses_released_aggregate :
    ∃ transitions last, Execution managerStep Manager.fresh transitions last ∧
      last.tally.stats.eventsReported = 1 ∧ last.incoming = [] ∧ last.batch = [] ∧
      last.tally.accounted = 0 ∧ heldEvents last.sevs = 0 ∧ ¬ last.Balanced := by
  refine ⟨_, _, execution_of_execute (show execute _ _ (flushedRun 2) = _ from rfl), rfl, rfl, rfl,
    rfl, rfl, ?_⟩
  intro balanced
  exact absurd balanced (by decide)

end Idsm.IdsM
