import Idsm.IdsM.WindowProperties

/-! The end of the windows in true time. The manager compares the last 32 bits of a window's
end with the last 32 bits of the time it reads. -/

set_option autoImplicit false

namespace Idsm.IdsM

/-- How long the worker waits for its queue, when it does not wait without a timeout. -/
def waitMs (nextDeadline nowMs : UInt32) : Option UInt32 :=
  if nextDeadline = 0 then none
  else some (max (if nowMs < nextDeadline then min (nextDeadline - nowMs) 100 else 0) 1)

def SevState.aggregates (sev : SevState) : Prop :=
  sev.aggPending.isSome = true ∧ sev.config.aggregationIntervalMs ≠ 0

def SevState.windowPending (sev : SevState) : Prop :=
  sev.aggregates ∨ sev.thrWindowOpen = true

/-- An event's state with the milliseconds at which its windows opened, counted without an
upper bound. -/
structure TimedSev where
  sev : SevState
  aggStart : Nat
  thrStart : Nat
  aggStored : sev.aggWindowStartMs = UInt32.ofNat aggStart
  thrStored : sev.thrWindowStartMs = UInt32.ofNat thrStart

namespace TimedSev

variable (timed : TimedSev) (now : Nat)

def aggEnd : Nat := timed.aggStart + timed.sev.config.aggregationIntervalMs.toNat

def thrEnd : Nat := timed.thrStart + timed.sev.config.eventThreshold.intervalMs.toNat

/-- The interval of the aggregation window is over. -/
def releases : Prop := timed.sev.aggregates ∧ timed.aggEnd ≤ now

end TimedSev

/-- The reading and the end are in one turn of the 32-bit clock, or their last 32 bits have
the order of the turns. -/
def ClockFits (now deadline : Nat) : Prop :=
  now / 2 ^ 32 = deadline / 2 ^ 32 ∨
    (now / 2 ^ 32 < deadline / 2 ^ 32 ∧ now % 2 ^ 32 < deadline % 2 ^ 32) ∨
    (deadline / 2 ^ 32 < now / 2 ^ 32 ∧ deadline % 2 ^ 32 ≤ now % 2 ^ 32)

/-- A window is closed when its interval is over, and one that stays makes the worker wait
with a timeout. -/
structure ExpiresInTime (windows : List TimedSev) (now : Nat)
    (later : List SevState × Tally × UInt32) : Prop where
  aggregation : ∀ (index : Nat) (timed : TimedSev) (after : SevState),
    windows[index]? = some timed → later.1[index]? = some after → timed.sev.aggregates →
    (after.aggPending = none ↔ timed.aggEnd ≤ now)
  threshold : ∀ (index : Nat) (timed : TimedSev) (after : SevState),
    windows[index]? = some timed → later.1[index]? = some after →
    timed.sev.thrWindowOpen = true → (after.thrWindowOpen = false ↔ timed.thrEnd ≤ now)
  deadline : (∃ after ∈ later.1, after.windowPending) →
    ∀ nowMs, (waitMs later.2.2 nowMs).isSome = true

/-- When that holds: each reading fits the ends it is compared with, no aggregate is released
while the threshold window of its event is over, and where a released aggregate leaves a
threshold window behind, a window of another event gives the deadline. -/
structure ExpiryCondition (windows : List TimedSev) (now : Nat) : Prop where
  aggregation : ∀ timed ∈ windows, timed.sev.aggregates → ClockFits now timed.aggEnd
  threshold : ∀ timed ∈ windows, timed.sev.thrWindowOpen = true →
    (timed.releases now → now < timed.thrEnd) ∧
      (¬timed.releases now → ClockFits now timed.thrEnd)
  deadline : (∃ timed ∈ windows, timed.releases now ∧
      (timed.sev.thrWindowOpen = true ∨ timed.sev.config.eventThreshold.threshold ≠ 0)) →
    ∃ timed ∈ windows, ¬timed.releases now ∧
      (timed.sev.aggregates ∨ timed.sev.thrWindowOpen = true ∧ now < timed.thrEnd)

section Readings

variable {timed : TimedSev} {now : Nat}

theorem clockFits_iff {deadline : Nat} :
    ClockFits now deadline ↔
      (UInt32.ofNat deadline ≤ UInt32.ofNat now ↔ deadline ≤ now) := by
  rw [UInt32.le_iff_toNat_le, UInt32.toNat_ofNat', UInt32.toNat_ofNat', ClockFits]
  omega

theorem TimedSev.aggDeadline (timed : TimedSev) :
    timed.sev.aggWindowStartMs + timed.sev.config.aggregationIntervalMs =
      UInt32.ofNat timed.aggEnd := by
  rw [aggEnd, UInt32.ofNat_add, timed.aggStored, UInt32.ofNat_toNat]

theorem TimedSev.thrDeadline (timed : TimedSev) :
    timed.sev.thrWindowStartMs + timed.sev.config.eventThreshold.intervalMs =
      UInt32.ofNat timed.thrEnd := by
  rw [thrEnd, UInt32.ofNat_add, timed.thrStored, UInt32.ofNat_toNat]

end Readings

section Sevs

variable {sev : SevState} {nowMs : UInt32} {staged : StagedQSEv}

theorem dueAggregate_isSome_iff :
    (∃ staged, dueAggregate nowMs sev = some staged) ↔ sev.aggregates ∧
      sev.aggWindowStartMs + sev.config.aggregationIntervalMs ≤ nowMs := by
  unfold dueAggregate SevState.aggregates
  rw [Option.isSome_iff_exists]
  split
  next due => exact ⟨fun pending => ⟨⟨pending, due.1⟩, due.2⟩, fun either => either.1.1⟩
  next waits =>
    refine ⟨fun impossible => ?_, fun either => absurd ⟨either.1.2, either.2⟩ waits⟩
    obtain ⟨_, none⟩ := impossible
    cases none

/-- A released aggregate leaves a threshold window open, when there is a threshold. -/
theorem releasedSev_open :
    (releasedSev nowMs sev staged).thrWindowOpen = true ↔
      sev.thrWindowOpen = true ∨ sev.config.eventThreshold.threshold ≠ 0 := by
  unfold releasedSev passThreshold
  dsimp only
  by_cases disabled : sev.config.eventThreshold.threshold = 0
  · rw [if_pos disabled]
    exact ⟨.inl, fun either => either.elim id fun enabled => absurd disabled enabled⟩
  · rw [if_neg disabled]
    cases opened : sev.thrWindowOpen with
    | true => simp
    | false => simp [disabled]

theorem releasedSev_aggPending : (releasedSev nowMs sev staged).aggPending = none := by
  unfold releasedSev
  exact (passThreshold_keeps _ staged.qsev.count nowMs).2.1

theorem expiredSev_released (due : dueAggregate nowMs sev = some staged) :
    expiredSev nowMs sev = releasedSev nowMs sev staged := by
  rw [expiredSev, due]

theorem expiredSev_waiting (waits : dueAggregate nowMs sev = none) :
    (expiredSev nowMs sev).config = sev.config ∧
      (expiredSev nowMs sev).aggPending = sev.aggPending ∧
      ((expiredSev nowMs sev).thrWindowOpen = true ↔ sev.thrWindowOpen = true ∧
        ¬sev.thrWindowStartMs + sev.config.eventThreshold.intervalMs ≤ nowMs) := by
  rw [expiredSev, waits]
  dsimp only
  unfold expireThreshold
  dsimp only
  split
  next opened =>
    split
    next due => exact ⟨rfl, rfl, by simp [due]⟩
    next later => exact ⟨rfl, rfl, by simp [opened, later]⟩
  next shut => exact ⟨rfl, rfl, by simp [shut]⟩

/-- The windows of an event that give the worker a deadline. -/
def SevState.waits (nowMs : UInt32) (sev : SevState) : Prop :=
  dueAggregate nowMs sev = none ∧ (sev.aggregates ∨ sev.thrWindowOpen = true ∧
    ¬sev.thrWindowStartMs + sev.config.eventThreshold.intervalMs ≤ nowMs)

theorem earlier_ne_zero {nextDeadline deadline : UInt32} (nonzero : deadline ≠ 0) :
    earlier nextDeadline deadline ≠ 0 := by
  unfold earlier
  split
  next => exact nonzero
  next kept => exact fun zero => kept (.inl zero)

/-- Zero is always due, so a deadline to come is never the one that stands for none. -/
theorem ne_zero_of_later {deadline : UInt32} (later : ¬deadline ≤ nowMs) : deadline ≠ 0 := by
  intro zero
  subst zero
  exact later (UInt32.le_iff_toNat_le.mpr (Nat.zero_le _))

theorem expireThreshold_deadline (nextDeadline : UInt32) :
    (expireThreshold nowMs sev nextDeadline).2 ≠ 0 ↔ nextDeadline ≠ 0 ∨
      sev.thrWindowOpen = true ∧
        ¬sev.thrWindowStartMs + sev.config.eventThreshold.intervalMs ≤ nowMs := by
  unfold expireThreshold
  dsimp only
  split
  next opened =>
    split
    next due => simp [due]
    next later => exact iff_of_true (earlier_ne_zero (ne_zero_of_later later)) (.inr ⟨opened, later⟩)
  next shut => simp [shut]

theorem aggregationDeadline_deadline (waits : dueAggregate nowMs sev = none)
    (nextDeadline : UInt32) :
    aggregationDeadline sev nextDeadline ≠ 0 ↔ nextDeadline ≠ 0 ∨ sev.aggregates := by
  unfold aggregationDeadline
  split
  next aggregates =>
    have later : ¬sev.aggWindowStartMs + sev.config.aggregationIntervalMs ≤ nowMs := by
      intro due
      obtain ⟨staged, found⟩ := dueAggregate_isSome_iff.2 ⟨aggregates, due⟩
      exact absurd (waits.symm.trans found) (by simp)
    exact iff_of_true (earlier_ne_zero (ne_zero_of_later later)) (.inr aggregates)
  next quiet => exact ⟨.inl, fun either => either.elim id fun aggregates => absurd aggregates quiet⟩

theorem expireWindow_deadline {sinks : Sinks} {tally : Tally} (nextDeadline : UInt32) :
    (expireWindow sinks nowMs sev tally nextDeadline).2.2 ≠ 0 ↔
      nextDeadline ≠ 0 ∨ sev.waits nowMs := by
  unfold expireWindow SevState.waits
  cases due : dueAggregate nowMs sev with
  | some staged => exact ⟨.inl, fun either => either.elim id fun waits => nomatch waits.1⟩
  | none =>
      dsimp only
      rw [expireThreshold_deadline, aggregationDeadline_deadline due, or_assoc]
      exact or_congr_right (and_iff_right rfl).symm

theorem expireWindows_deadline {sinks : Sinks} {tally : Tally} (sevs : List SevState)
    (nextDeadline : UInt32) :
    (expireWindows sinks nowMs sevs tally nextDeadline).2.2 ≠ 0 ↔
      nextDeadline ≠ 0 ∨ ∃ sev ∈ sevs, sev.waits nowMs := by
  induction sevs generalizing tally nextDeadline with
  | nil => simp [expireWindows]
  | cons sev rest ih =>
      rw [expireWindows]
      dsimp only
      rw [ih, expireWindow_deadline, or_assoc]
      simp only [List.mem_cons, exists_eq_or_imp]

theorem windowPending_expiredSev :
    (expiredSev nowMs sev).windowPending ↔ sev.waits nowMs ∨
      (∃ staged, dueAggregate nowMs sev = some staged) ∧
        (sev.thrWindowOpen = true ∨ sev.config.eventThreshold.threshold ≠ 0) := by
  unfold SevState.windowPending SevState.waits
  cases due : dueAggregate nowMs sev with
  | some staged =>
      rw [expiredSev_released due, releasedSev_open, SevState.aggregates, releasedSev_aggPending]
      simp
  | none =>
      obtain ⟨config, pending, opened⟩ := expiredSev_waiting due
      rw [opened, SevState.aggregates, config, pending, ← SevState.aggregates]
      simp

end Sevs

section Condition

variable {timed : TimedSev} {now : Nat} {sinks : Sinks} {tally : Tally} {windows : List TimedSev}

theorem TimedSev.due_iff :
    (∃ staged, dueAggregate (.ofNat now) timed.sev = some staged) ↔
      timed.sev.aggregates ∧ UInt32.ofNat timed.aggEnd ≤ UInt32.ofNat now := by
  rw [dueAggregate_isSome_iff, timed.aggDeadline]

/-- Where the reading fits the end, the aggregates that leave are those whose interval is
over. -/
theorem TimedSev.due_iff_releases (fits : timed.sev.aggregates → ClockFits now timed.aggEnd) :
    (∃ staged, dueAggregate (.ofNat now) timed.sev = some staged) ↔ timed.releases now := by
  rw [timed.due_iff, releases]
  exact and_congr_right fun aggregates => clockFits_iff.1 (fits aggregates)

theorem expired_getElem {index : Nat} {after : SevState} (here : windows[index]? = some timed) :
    (expireWindows sinks (.ofNat now) (windows.map TimedSev.sev) tally 0).1[index]? = some after ↔
      after = expiredSev (.ofNat now) timed.sev := by
  rw [expireWindows_fst, List.getElem?_map, List.getElem?_map, here]
  exact ⟨fun same => (Option.some.inj same).symm, fun same => same ▸ rfl⟩

theorem waitMs_isSome {nextDeadline nowMs : UInt32} :
    (waitMs nextDeadline nowMs).isSome = true ↔ nextDeadline ≠ 0 := by
  unfold waitMs
  split
  next none => simp [none]
  next some => simp [some]

/-- The aggregate of one event leaves in time exactly when the reading fits its end. -/
theorem aggregation_inTime_iff (aggregates : timed.sev.aggregates) :
    ((expiredSev (.ofNat now) timed.sev).aggPending = none ↔ timed.aggEnd ≤ now) ↔
      ClockFits now timed.aggEnd := by
  rw [clockFits_iff]
  apply iff_congr _ Iff.rfl
  cases due : dueAggregate (.ofNat now) timed.sev with
  | some staged =>
      rw [expiredSev_released due, releasedSev_aggPending]
      exact iff_of_true rfl (timed.due_iff.1 ⟨staged, due⟩).2
  | none =>
      rw [(expiredSev_waiting due).2.1]
      refine iff_of_false (fun none => ?_) fun reached => ?_
      · have some := aggregates.1
        rw [none] at some
        cases some
      · obtain ⟨staged, found⟩ := timed.due_iff.2 ⟨aggregates, reached⟩
        exact absurd (due.symm.trans found) (by simp)

/-- So does its threshold window, when no aggregate is released before it. -/
theorem threshold_inTime_iff (opened : timed.sev.thrWindowOpen = true) :
    ((expiredSev (.ofNat now) timed.sev).thrWindowOpen = false ↔ timed.thrEnd ≤ now) ↔
      ((∃ staged, dueAggregate (.ofNat now) timed.sev = some staged) → now < timed.thrEnd) ∧
        ((¬∃ staged, dueAggregate (.ofNat now) timed.sev = some staged) →
          ClockFits now timed.thrEnd) := by
  cases due : dueAggregate (.ofNat now) timed.sev with
  | some staged =>
      rw [expiredSev_released due, releasedSev_open.2 (.inl opened)]
      simp
  | none =>
      have stays := (expiredSev_waiting due).2.2
      rw [timed.thrDeadline, and_iff_right opened] at stays
      rw [clockFits_iff, ← Bool.not_eq_true, stays]
      simp

/-- Some window gives a deadline, or no released aggregate leaves a threshold window. -/
theorem deadline_inTime_iff :
    ((∃ after ∈ (expireWindows sinks (.ofNat now) (windows.map TimedSev.sev) tally 0).1,
        after.windowPending) →
      ∀ nowMs, (waitMs (expireWindows sinks (.ofNat now) (windows.map TimedSev.sev) tally
        0).2.2 nowMs).isSome = true) ↔
      ((∃ timed ∈ windows, (∃ staged, dueAggregate (.ofNat now) timed.sev = some staged) ∧
          (timed.sev.thrWindowOpen = true ∨ timed.sev.config.eventThreshold.threshold ≠ 0)) →
        ∃ timed ∈ windows, timed.sev.waits (.ofNat now)) := by
  have pending : (∃ after ∈ (expireWindows sinks (.ofNat now) (windows.map TimedSev.sev) tally 0).1,
      after.windowPending) ↔
      (∃ timed ∈ windows, timed.sev.waits (.ofNat now)) ∨
        ∃ timed ∈ windows, (∃ staged, dueAggregate (.ofNat now) timed.sev = some staged) ∧
          (timed.sev.thrWindowOpen = true ∨ timed.sev.config.eventThreshold.threshold ≠ 0) := by
    rw [expireWindows_fst, List.map_map]
    simp only [List.mem_map, Function.comp_apply, exists_exists_and_eq_and,
      windowPending_expiredSev, and_or_left, exists_or]
  have deadline : (∀ nowMs, (waitMs (expireWindows sinks (.ofNat now) (windows.map TimedSev.sev)
      tally 0).2.2 nowMs).isSome = true) ↔ ∃ timed ∈ windows, timed.sev.waits (.ofNat now) := by
    simp only [waitMs_isSome, forall_const, expireWindows_deadline, ne_eq, not_true_eq_false,
      false_or, List.mem_map, exists_exists_and_eq_and]
  rw [pending, deadline, or_imp]
  exact and_iff_right id

/-- Where the readings fit, the events whose windows give a deadline are those with a window
that is not over and no aggregate that leaves. -/
theorem TimedSev.waits_iff (fits : timed.sev.aggregates → ClockFits now timed.aggEnd)
    (threshold : timed.sev.thrWindowOpen = true → ¬timed.releases now →
      ClockFits now timed.thrEnd) :
    timed.sev.waits (.ofNat now) ↔ ¬timed.releases now ∧
      (timed.sev.aggregates ∨ timed.sev.thrWindowOpen = true ∧ now < timed.thrEnd) := by
  have due := timed.due_iff_releases fits
  unfold SevState.waits
  rw [timed.thrDeadline, ← due, ← Option.isSome_iff_exists, Option.not_isSome_iff_eq_none]
  apply and_congr_right
  intro none
  apply or_congr_right
  apply and_congr_right
  intro opened
  have kept : ¬timed.releases now := by
    rw [← due, none]
    rintro ⟨_, impossible⟩
    cases impossible
  rw [clockFits_iff.1 (threshold opened kept), Nat.not_le]

/-- For any windows, opened at any time, and any reading of the clock. -/
theorem expiresInTime_iff (sinks : Sinks) (tally : Tally) (windows : List TimedSev) (now : Nat) :
    ExpiresInTime windows now
        (expireWindows sinks (.ofNat now) (windows.map TimedSev.sev) tally 0) ↔
      ExpiryCondition windows now := by
  have deadlines : (∀ timed ∈ windows, timed.sev.aggregates → ClockFits now timed.aggEnd) →
      (∀ timed ∈ windows, timed.sev.thrWindowOpen = true → ¬timed.releases now →
        ClockFits now timed.thrEnd) →
      (∀ timed ∈ windows, ((∃ staged, dueAggregate (.ofNat now) timed.sev = some staged) ↔
          timed.releases now) ∧
        (timed.sev.waits (.ofNat now) ↔ ¬timed.releases now ∧
          (timed.sev.aggregates ∨ timed.sev.thrWindowOpen = true ∧ now < timed.thrEnd))) :=
    fun fits threshold timed member =>
      ⟨timed.due_iff_releases (fits timed member),
        timed.waits_iff (fits timed member) (threshold timed member)⟩
  constructor
  · rintro ⟨aggregation, threshold, deadline⟩
    have fits : ∀ timed ∈ windows, timed.sev.aggregates → ClockFits now timed.aggEnd := by
      intro timed member aggregates
      obtain ⟨index, here⟩ := List.getElem?_of_mem member
      exact (aggregation_inTime_iff aggregates).mp
        (aggregation index timed _ here ((expired_getElem here).mpr rfl) aggregates)
    have opens : ∀ timed ∈ windows, timed.sev.thrWindowOpen = true →
        (timed.releases now → now < timed.thrEnd) ∧
          (¬timed.releases now → ClockFits now timed.thrEnd) := by
      intro timed member opened
      obtain ⟨index, here⟩ := List.getElem?_of_mem member
      have found := (threshold_inTime_iff opened).mp
        (threshold index timed _ here ((expired_getElem here).mpr rfl) opened)
      rwa [timed.due_iff_releases (fits timed member)] at found
    refine ⟨fits, opens, ?_⟩
    rw [deadline_inTime_iff] at deadline
    have read := deadlines fits fun timed member opened => (opens timed member opened).2
    rintro ⟨timed, member, releases, remains⟩
    obtain ⟨other, there, waits⟩ :=
      deadline ⟨timed, member, (read timed member).1.mpr releases, remains⟩
    exact ⟨other, there, (read other there).2.mp waits⟩
  · rintro ⟨fits, opens, deadline⟩
    have read := deadlines fits fun timed member opened => (opens timed member opened).2
    refine ⟨?_, ?_, ?_⟩
    · intro index timed after here found aggregates
      obtain rfl := (expired_getElem here).mp found
      exact (aggregation_inTime_iff aggregates).mpr
        (fits timed (List.mem_of_getElem? here) aggregates)
    · intro index timed after here found opened
      obtain rfl := (expired_getElem here).mp found
      have member := List.mem_of_getElem? here
      rw [threshold_inTime_iff opened, (read timed member).1]
      exact opens timed member opened
    · rw [deadline_inTime_iff]
      rintro ⟨timed, member, due, remains⟩
      obtain ⟨other, there, waits⟩ :=
        deadline ⟨timed, member, (read timed member).1.mp due, remains⟩
      exact ⟨other, there, (read other there).2.mpr waits⟩

/-- An aggregate of 20 ms that opened at the given time, with a threshold of 5. -/
def TimedSev.sample (start : Nat) : TimedSev where
  sev := { SevState.initial ⟨0x8001, 0, .low, 2, none, 0, 20, ⟨5, 1000⟩, true, true⟩ with
    aggPending := some ⟨⟨1, 0x8001, 0, .low, 1, true, ⟨0, 0, .autosar⟩, 1, []⟩, 0⟩
    aggWindowStartMs := .ofNat start }
  aggStart := start
  thrStart := 0
  aggStored := rfl
  thrStored := rfl

/-- The clock turns inside the window, and the aggregate leaves after 5 ms. Another one leaves
a threshold window behind, and the worker gets no timeout. -/
theorem windows_not_inTime :
    ¬ExpiresInTime [.sample (2 ^ 32 - 10)] (2 ^ 32 - 5)
        (expireWindows ⟨false, true⟩ (.ofNat (2 ^ 32 - 5)) [(TimedSev.sample (2 ^ 32 - 10)).sev]
          .zero 0) ∧
      ¬ExpiresInTime [.sample 100] 120
        (expireWindows ⟨false, true⟩ (.ofNat 120) [(TimedSev.sample 100).sev] .zero 0) := by
  constructor
  · intro inTime
    have found := inTime.aggregation 0 (.sample (2 ^ 32 - 10)) _ rfl rfl ⟨rfl, by decide⟩
    exact absurd (found.mp rfl) (by decide)
  · intro inTime
    exact absurd (inTime.deadline ⟨_, List.mem_singleton_self _, .inr rfl⟩ 120) (by decide)

end Condition

end Idsm.IdsM
