import Idsm.Foundation.Windows
import Idsm.IdsM.WindowProperties

/-! The aggregates that leave one event's windows, over whole runs of events, ticks and
flushes. -/

set_option autoImplicit false

namespace Idsm.IdsM

open Idsm.Foundation
open Idsm.IdsRm (OwnedQSEv)

/-- An event that the aggregation took in. -/
structure Member where
  timeMs : UInt32
  qsev : OwnedQSEv
  deriving DecidableEq, Repr

def Member.time (member : Member) : Nat := member.timeMs.toNat

structure Release where
  qsev : OwnedQSEv
  flushed : Bool
  deriving DecidableEq, Repr

def FilterRecord.member? : FilterRecord → Option Member
  | .aggregated timeMs qsev => some ⟨timeMs, qsev⟩
  | _ => none

def FilterRecord.release? : FilterRecord → Option Release
  | .released qsev flushed => some ⟨qsev, flushed⟩
  | _ => none

def membersOf (index : Nat) (transition : ManagerTransition) : List Member :=
  (sevRecords index transition.before transition.event).filterMap FilterRecord.member?

def releasesOf (index : Nat) (transition : ManagerTransition) : List Release :=
  (sevRecords index transition.before transition.event).filterMap FilterRecord.release?

def memberSum (members : List Member) : Nat :=
  (members.map fun member => member.qsev.count.toNat).sum

/-- The first event with the count of all of them, at most the largest one. -/
def aggregate : List Member → Option OwnedQSEv
  | [] => none
  | first :: rest =>
      some { first.qsev with count := UInt16.ofNat (min 65535 (memberSum (first :: rest))) }

/-- The events of one window, and whether a flush ended it. -/
structure Group where
  members : List Member
  flushed : Bool
  deriving DecidableEq, Repr

def Group.release (group : Group) : Option Release :=
  (aggregate group.members).map fun qsev => ⟨qsev, group.flushed⟩

/-- A window that no flush ended is over before anything behind it. -/
def WindowsEnd (interval : Nat) (current : List Member) : List Group → Prop
  | [] => True
  | group :: later =>
      (group.flushed = false → ∀ first ∈ group.members.head?,
        ∀ member ∈ later.flatMap Group.members ++ current, first.time + interval ≤ member.time) ∧
        WindowsEnd interval current later

/-- The windows that gave the released aggregates, and the open one. -/
structure Partition (interval : Nat) (members : List Member) (releases : List Release)
    (groups : List Group) (current : List Member) : Prop where
  covers : members = groups.flatMap Group.members ++ current
  released : groups.map Group.release = releases.map some
  within : ∀ group ∈ groups, Within Member.time interval group.members
  open_within : Within Member.time interval current
  ends : WindowsEnd interval current groups

/-- Every aggregated event is in exactly one window, closed or open. -/
def AggregatesByLaw (interval : Nat) (members : List Member) (releases : List Release)
    (pending : Option OwnedQSEv) : Prop :=
  ∃ groups current, Partition interval members releases groups current ∧
    aggregate current = pending

/-- An event joins its window in time, and a window is released when it is over. -/
structure TimelyAggregation (index : Nat) (manager : Manager) (event : ManagerEvent)
    (sev : SevState) : Prop where
  joins : ∀ member ∈ (sevRecords index manager event).filterMap FilterRecord.member?,
    member.time < sev.aggWindowStartMs.toNat + sev.config.aggregationIntervalMs.toNat
  closes : ∀ nowMs ∈ event.tick manager, (dueAggregate nowMs sev).isSome →
    sev.aggWindowStartMs.toNat + sev.config.aggregationIntervalMs.toNat ≤ nowMs.toNat

def CarefulAggregation (index : Nat) (manager : Manager) (event : ManagerEvent) : Prop :=
  ∀ sev ∈ manager.sevs[index]?, sev.aggPending.isSome → TimelyAggregation index manager event sev

instance (index : Nat) (manager : Manager) (event : ManagerEvent) (sev : SevState) :
    Decidable (TimelyAggregation index manager event sev) :=
  decidable_of_iff
    ((∀ member ∈ (sevRecords index manager event).filterMap FilterRecord.member?,
        member.time < sev.aggWindowStartMs.toNat + sev.config.aggregationIntervalMs.toNat) ∧
      ∀ nowMs ∈ event.tick manager, (dueAggregate nowMs sev).isSome →
        sev.aggWindowStartMs.toNat + sev.config.aggregationIntervalMs.toNat ≤ nowMs.toNat)
    ⟨fun ⟨joins, closes⟩ => ⟨joins, closes⟩, fun ⟨joins, closes⟩ => ⟨joins, closes⟩⟩

instance (index : Nat) (manager : Manager) (event : ManagerEvent) :
    Decidable (CarefulAggregation index manager event) :=
  inferInstanceAs (Decidable (∀ sev ∈ manager.sevs[index]?, sev.aggPending.isSome →
    TimelyAggregation index manager event sev))

section Counts

variable {members : List Member} {member : Member}

theorem mergedCount_toNat (pending count : UInt16) :
    (mergedCount pending count).toNat = min 65535 (pending.toNat + count.toNat) := by
  have small := pending.toNat_lt
  have less := count.toNat_lt
  have sum : (pending.toUInt32 + count.toUInt32).toNat = pending.toNat + count.toNat := by
    rw [UInt32.toNat_add, UInt16.toNat_toUInt32, UInt16.toNat_toUInt32]
    omega
  unfold mergedCount
  dsimp only
  split
  next large =>
    rw [UInt32.lt_iff_toNat_lt, sum] at large
    change 65535 < _ at large
    exact (Nat.min_eq_left large.le).symm
  next small =>
    rw [UInt32.lt_iff_toNat_lt, sum] at small
    change ¬65535 < _ at small
    rw [UInt32.toNat_toUInt16, sum]
    omega

theorem memberSum_append (members : List Member) (member : Member) :
    memberSum (members ++ [member]) = memberSum members + member.qsev.count.toNat := by
  simp [memberSum]

/-- One more member of the open window. -/
theorem aggregate_append {pending : OwnedQSEv} (staged : aggregate members = some pending) :
    aggregate (members ++ [member]) =
      some { pending with count := mergedCount pending.count member.qsev.count } := by
  cases members with
  | nil => cases staged
  | cons first rest =>
      obtain rfl := Option.some.inj staged
      have count : UInt16.ofNat (min 65535 (memberSum (first :: rest) + member.qsev.count.toNat)) =
          mergedCount (UInt16.ofNat (min 65535 (memberSum (first :: rest)))) member.qsev.count := by
        apply UInt16.toNat_inj.mp
        rw [mergedCount_toNat, UInt16.toNat_ofNat', UInt16.toNat_ofNat']
        omega
      rw [List.cons_append, aggregate, ← List.cons_append, memberSum_append, count]

theorem aggregate_singleton (member : Member) : aggregate [member] = some member.qsev := by
  have small := member.qsev.count.toNat_lt
  rw [aggregate, memberSum, List.map_singleton, List.sum_singleton,
    Nat.min_eq_right (by omega), UInt16.ofNat_toNat]

end Counts

section Windows

variable {interval : Nat} {members current : List Member} {releases : List Release}
  {groups : List Group} {member : Member}

theorem WindowsEnd.join (ends : WindowsEnd interval current groups)
    (beyond : ∀ group ∈ groups, group.flushed = false → ∀ first ∈ group.members.head?,
      first.time + interval ≤ member.time) :
    WindowsEnd interval (current ++ [member]) groups := by
  induction groups with
  | nil => trivial
  | cons group later ih =>
      refine ⟨fun timed first there other place => ?_,
        ih ends.2 fun group behind => beyond group (List.mem_cons_of_mem _ behind)⟩
      rw [← List.append_assoc, List.mem_append, List.mem_singleton] at place
      rcases place with before | rfl
      · exact ends.1 timed first there other before
      · exact beyond group List.mem_cons_self timed first there

theorem WindowsEnd.close {flushed : Bool} (ends : WindowsEnd interval current groups) :
    WindowsEnd interval [] (groups ++ [⟨current, flushed⟩]) := by
  induction groups with
  | nil =>
      refine ⟨fun _ first _ other place => ?_, trivial⟩
      cases place
  | cons group later ih =>
      rw [List.cons_append]
      refine ⟨fun timed first there other place => ?_, ih ends.2⟩
      rw [List.append_nil, List.flatMap_append, List.flatMap_singleton] at place
      exact ends.1 timed first there other place

/-- An event joins the open window, or opens one. -/
theorem Partition.join (partition : Partition interval members releases groups current)
    (inside : Within Member.time interval (current ++ [member]))
    (beyond : ∀ group ∈ groups, group.flushed = false → ∀ first ∈ group.members.head?,
      first.time + interval ≤ member.time) :
    Partition interval (members ++ [member]) releases groups (current ++ [member]) where
  covers := by rw [partition.covers, List.append_assoc]
  released := partition.released
  within := partition.within
  open_within := inside
  ends := partition.ends.join beyond

/-- The open window leaves as an aggregate. -/
theorem Partition.close {qsev : OwnedQSEv} {flushed : Bool}
    (partition : Partition interval members releases groups current)
    (staged : aggregate current = some qsev) :
    Partition interval members (releases ++ [⟨qsev, flushed⟩])
      (groups ++ [⟨current, flushed⟩]) [] where
  covers := by
    rw [partition.covers, List.flatMap_append, List.flatMap_singleton, List.append_nil]
  released := by
    rw [List.map_append, List.map_append, partition.released, List.map_singleton, Group.release,
      staged]
    rfl
  within := by
    intro group member
    rcases List.mem_append.mp member with before | last
    · exact partition.within group before
    · obtain rfl := List.mem_singleton.mp last
      exact partition.open_within
  open_within := by
    intro first there
    cases there
  ends := partition.ends.close

end Windows

section Runs

/-- The open window is the pending aggregate, and the closed ones that no flush ended are
over. -/
structure Tracked (config : SecurityEventConfig) (members : List Member)
    (releases : List Release) (times : List UInt32) (sev : SevState) (groups : List Group)
    (current : List Member) : Prop where
  configured : sev.config = config
  partition : Partition config.aggregationIntervalMs.toNat members releases groups current
  pending : aggregate current = sev.aggPending.map StagedQSEv.qsev
  started : ∀ first ∈ current.head?, first.timeMs = sev.aggWindowStartMs
  beyond : ∀ group ∈ groups, group.flushed = false → ∀ first ∈ group.members.head?,
    ∃ now ∈ times, first.time + config.aggregationIntervalMs.toNat ≤ now.toNat

variable {config : SecurityEventConfig} {members current : List Member} {releases : List Release}
  {times later : List UInt32} {groups : List Group} {sev after : SevState}

theorem Tracked.same (tracked : Tracked config members releases times sev groups current)
    (sameConfig : after.config = sev.config)
    (same : after.aggregationWindow = sev.aggregationWindow) :
    Tracked config members releases (times ++ later) after groups current := by
  have pending : after.aggPending = sev.aggPending := congrArg AggregationWindow.pending same
  have start : after.aggWindowStartMs = sev.aggWindowStartMs :=
    congrArg AggregationWindow.start same
  refine ⟨sameConfig.trans tracked.configured, tracked.partition, ?_, ?_, ?_⟩
  · rw [pending]
    exact tracked.pending
  · rw [start]
    exact tracked.started
  · intro group member timed first there
    obtain ⟨now, read, ended⟩ := tracked.beyond group member timed first there
    exact ⟨now, List.mem_append_left _ read, ended⟩

theorem Tracked.join {timeMs : UInt32} {qsev : OwnedQSEv}
    (tracked : Tracked config members releases times sev groups current)
    (enabled : sev.config.aggregationIntervalMs ≠ 0) (sameConfig : after.config = sev.config)
    (timely : sev.aggPending.isSome →
      timeMs.toNat < sev.aggWindowStartMs.toNat + config.aggregationIntervalMs.toNat)
    (clock : ∀ now ∈ times, now ≤ timeMs)
    (moved : after.aggregationWindow = sev.aggregationWindow.add qsev timeMs) :
    ∃ joined, Tracked config (members ++ [⟨timeMs, qsev⟩]) releases (times ++ later) after groups
      joined := by
  have positive : 0 < config.aggregationIntervalMs.toNat := by
    rw [← tracked.configured, Nat.pos_iff_ne_zero]
    exact fun zero => enabled (UInt32.toNat_inj.mp zero)
  have beyond : ∀ group ∈ groups, group.flushed = false → ∀ first ∈ group.members.head?,
      first.time + config.aggregationIntervalMs.toNat ≤ Member.time ⟨timeMs, qsev⟩ := by
    intro group member timed first there
    obtain ⟨now, read, ended⟩ := tracked.beyond group member timed first there
    exact ended.trans (UInt32.le_iff_toNat_le.mp (clock now read))
  have kept : ∀ group ∈ groups, group.flushed = false → ∀ first ∈ group.members.head?,
      ∃ now ∈ times ++ later,
        first.time + config.aggregationIntervalMs.toNat ≤ now.toNat := by
    intro group member timed first there
    obtain ⟨now, read, ended⟩ := tracked.beyond group member timed first there
    exact ⟨now, List.mem_append_left _ read, ended⟩
  have pending : after.aggPending = (sev.aggregationWindow.add qsev timeMs).pending :=
    congrArg AggregationWindow.pending moved
  have start : after.aggWindowStartMs = (sev.aggregationWindow.add qsev timeMs).start :=
    congrArg AggregationWindow.start moved
  have staged := tracked.pending
  unfold AggregationWindow.add SevState.aggregationWindow at pending start
  cases waits : sev.aggPending with
  | none =>
      rw [waits] at pending start staged
      have empty : current = [] := by
        cases current with
        | nil => rfl
        | cons first rest => cases staged
      subst empty
      refine ⟨[⟨timeMs, qsev⟩], sameConfig.trans tracked.configured,
        tracked.partition.join (within_singleton _ positive) beyond, ?_, ?_, kept⟩
      · rw [aggregate_singleton, pending]
        rfl
      · intro first there
        obtain rfl := Option.some.inj there
        exact start.symm
  | some aggregated =>
      rw [waits] at pending start staged
      rw [waits] at timely
      cases current with
      | nil => cases staged
      | cons first rest =>
          have opened := tracked.started first rfl
          refine ⟨first :: rest ++ [⟨timeMs, qsev⟩], sameConfig.trans tracked.configured,
            tracked.partition.join (tracked.partition.open_within.append ?_) beyond, ?_, ?_, kept⟩
          · rw [Member.time, Member.time, opened]
            exact timely rfl
          · rw [aggregate_append staged, pending]
            rfl
          · intro head there
            obtain rfl := Option.some.inj there
            exact opened.trans start.symm

theorem Tracked.release {staged : StagedQSEv} {flushed : Bool}
    (tracked : Tracked config members releases times sev groups current)
    (sameConfig : after.config = sev.config) (pending : sev.aggPending = some staged)
    (due : flushed = false → ∃ now ∈ later,
      sev.aggWindowStartMs.toNat + config.aggregationIntervalMs.toNat ≤ now.toNat)
    (left : after.aggPending = none) :
    Tracked config members (releases ++ [⟨staged.qsev, flushed⟩]) (times ++ later) after
      (groups ++ [⟨current, flushed⟩]) [] := by
  have whole := tracked.pending
  rw [pending] at whole
  refine ⟨sameConfig.trans tracked.configured, tracked.partition.close whole, ?_, ?_, ?_⟩
  · rw [left]
    rfl
  · intro first there
    cases there
  · intro group member timed first there
    rcases List.mem_append.mp member with before | last
    · obtain ⟨now, read, ended⟩ := tracked.beyond group before timed first there
      exact ⟨now, List.mem_append_left _ read, ended⟩
    · obtain rfl := List.mem_singleton.mp last
      obtain ⟨now, read, ended⟩ := due timed
      refine ⟨now, List.mem_append_right _ read, ?_⟩
      rw [Member.time, tracked.started first there]
      exact ended

/-- The run's invariant for one event. -/
def AggregationFollowed (index : Nat) (config : SecurityEventConfig)
    (past : List ManagerTransition) (manager : Manager) : Prop :=
  ∃ sev groups current, manager.sevs[index]? = some sev ∧
    Tracked config (past.flatMap (membersOf index)) (past.flatMap (releasesOf index))
      (readTimes past) sev groups current

/-- What a step of a run may be: no restart of the manager, a clock that does not go back,
and windows that are looked at in time. -/
structure AggregationAllowed (index : Nat) (past : List ManagerTransition) (manager : Manager)
    (event : ManagerEvent) : Prop where
  keeps : event.keepsSevs = true
  clock : ∀ earlier ∈ readTimes past, ∀ now ∈ event.times, earlier ≤ now
  careful : CarefulAggregation index manager event

theorem aggregation_step {index : Nat} {past : List ManagerTransition} {manager next : Manager}
    {event : ManagerEvent} (followed : AggregationFollowed index config past manager)
    (allowed : AggregationAllowed index past manager event)
    (stepped : managerStep manager event = some next) :
    AggregationFollowed index config (past ++ [⟨manager, event, next⟩]) next := by
  obtain ⟨sev, groups, current, here, tracked⟩ := followed
  obtain ⟨after, found, sameConfig, step⟩ := sev_stepped here allowed.keeps stepped
  have careful := allowed.careful sev here
  have clock : ∀ record ∈ sevRecords index manager event, ∀ timeMs,
      record.time = some timeMs → ∀ now ∈ readTimes past, now ≤ timeMs := by
    intro record member timeMs seen now read
    exact allowed.clock now read timeMs (record_mem_times member seen)
  have timely : ∀ member ∈ (sevRecords index manager event).filterMap FilterRecord.member?,
      sev.aggPending.isSome → member.time <
        sev.aggWindowStartMs.toNat + config.aggregationIntervalMs.toNat := by
    intro member there pending
    rw [← tracked.configured]
    exact (careful pending).joins member there
  rw [AggregationFollowed, List.flatMap_append, List.flatMap_append, List.flatMap_singleton,
    List.flatMap_singleton, readTimes, List.flatMap_append, List.flatMap_singleton, ← readTimes,
    membersOf, releasesOf]
  dsimp only
  generalize drawn : sevRecords index manager event = records at step clock timely
  cases step with
  | quiet aggregation =>
      refine ⟨after, groups, current, found, ?_⟩
      rw [List.filterMap_nil, List.filterMap_nil, List.append_nil, List.append_nil]
      exact tracked.same sameConfig aggregation
  | @aggregated timeMs qsev enabled aggregation =>
      obtain ⟨joined, tracks⟩ := tracked.join enabled sameConfig
        (timely ⟨timeMs, qsev⟩ (List.mem_singleton_self _))
        (clock _ (List.mem_singleton_self _) timeMs rfl) aggregation
      refine ⟨after, groups, joined, found, ?_⟩
      exact (List.append_nil (past.flatMap (releasesOf index))).symm ▸ tracks
  | evaluated aggregation =>
      refine ⟨after, groups, current, found, ?_⟩
      have tracks : Tracked config _ _ (readTimes past ++ event.times) after groups current :=
        tracked.same sameConfig aggregation
      exact (List.append_nil (past.flatMap (membersOf index))).symm ▸
        (List.append_nil (past.flatMap (releasesOf index))).symm ▸ tracks
  | @released timeMs staged flushed pending due aggregation =>
      refine ⟨after, groups ++ [⟨current, flushed⟩], [], found, ?_⟩
      have beyond : flushed = false → ∃ now ∈ event.times,
          sev.aggWindowStartMs.toNat + config.aggregationIntervalMs.toNat ≤ now.toNat := by
        intro timed
        obtain flush | ⟨beyond, ticks⟩ := due
        · exact absurd (timed.symm.trans flush) (by simp)
        · have ended := (careful (by rw [pending]; rfl)).closes timeMs ticks (by rw [beyond]; rfl)
          rw [tracked.configured] at ended
          exact ⟨timeMs, tick_mem_times ticks, ended⟩
      have tracks := tracked.release sameConfig pending beyond aggregation
      exact (List.append_nil (past.flatMap (membersOf index))).symm ▸ tracks
  | closed _ _ _ _ aggregation =>
      refine ⟨after, groups, current, found, ?_⟩
      rw [List.filterMap_nil, List.filterMap_nil, List.append_nil, List.append_nil]
      exact tracked.same sameConfig aggregation

/-- [SWS_IdsM_01041-01046] in every run whose clock does not go back and that looks at the
window of the event in time: the released aggregates and the pending one partition the
aggregated events into windows. -/
theorem aggregation_law_of_careful {start last : Manager} {transitions : List ManagerTransition}
    {index : Nat} {sev : SevState} (run : Execution managerStep start transitions last)
    (here : start.sevs[index]? = some sev) (empty : sev.aggPending = none)
    (clock : ClockRuns transitions)
    (keeps : ∀ transition ∈ transitions, transition.event.keepsSevs = true)
    (careful : ∀ transition ∈ transitions,
      CarefulAggregation index transition.before transition.event) :
    ∃ ended, last.sevs[index]? = some ended ∧
      AggregatesByLaw sev.config.aggregationIntervalMs.toNat
        (transitions.flatMap (membersOf index)) (transitions.flatMap (releasesOf index))
        (ended.aggPending.map StagedQSEv.qsev) := by
  have followed : AggregationFollowed index sev.config transitions last := by
    refine run.invariant_of_past (AggregationFollowed index sev.config) (AggregationAllowed index)
      (fun followed allowed stepped => aggregation_step followed allowed stepped)
      ⟨sev, [], [], here, rfl, ⟨rfl, rfl, ?_, ?_, trivial⟩, ?_, ?_, ?_⟩ ?_
    · intro group none
      cases none
    · intro first none
      cases none
    · rw [empty]
      rfl
    · intro first none
      cases none
    · intro group none
      cases none
    · intro past transition rest split
      have member : transition ∈ transitions := by simp [split]
      exact ⟨keeps transition member, clock.after split, careful transition member⟩
  obtain ⟨ended, groups, current, found, tracked⟩ := followed
  exact ⟨ended, found, groups, current, tracked.partition, tracked.pending⟩

/-- The worker's tick behind the batch. -/
def batchAndTick (first second tickMs : UInt32) : List ManagerEvent :=
  batchOfTwo first second ++ [.process ⟨second, second, ⟨0, 0, .autosar⟩⟩, .expire tickMs]

def qsevSample (count : UInt16) (contextData : List UInt8) : OwnedQSEv :=
  ⟨1, 0x8001, 0, .low, count, true, ⟨0, 0, .autosar⟩, 1, contextData⟩

theorem aggregation_law_sample :
    ∃ transitions last, execute managerStep (windowStart 20 0 0) (batchAndTick 5 24 25) =
      some (transitions, last) ∧
      transitions.flatMap (releasesOf 0) = [⟨qsevSample 2 [1], false⟩] ∧
      ∃ ended, last.sevs[0]? = some ended ∧
        AggregatesByLaw 20 (transitions.flatMap (membersOf 0))
          (transitions.flatMap (releasesOf 0)) (ended.aggPending.map StagedQSEv.qsev) := by
  have ran : execute managerStep (windowStart 20 0 0) (batchAndTick 5 24 25) = some _ := rfl
  have law := @aggregation_law_of_careful _ _ _ 0 _ (execution_of_execute ran) rfl rfl
  exact ⟨_, _, ran, by decide,
    law (by decide) (by decide) (by decide)⟩

/-- Two events of different windows do not make one aggregate. -/
theorem not_byLaw_of_merged {interval : Nat} {first second : Member} {release : Release}
    {pending : Option OwnedQSEv} (apart : first.time + interval ≤ second.time)
    (counts : aggregate [first] ≠ some release.qsev) :
    ¬AggregatesByLaw interval [first, second] [release] pending := by
  rintro ⟨groups, current, partition, _⟩
  have lengths := congrArg List.length partition.released
  rw [List.length_map, List.length_map, List.length_singleton] at lengths
  obtain ⟨group, rfl⟩ := List.length_eq_one_iff.mp lengths
  have released : group.release = some release := List.singleton_inj.mp partition.released
  have covers := partition.covers
  have within := partition.within group (List.mem_singleton_self _)
  obtain ⟨qsev, whole, same⟩ := Option.map_eq_some_iff.mp released
  rw [← same] at counts
  rw [List.flatMap_singleton] at covers
  match members : group.members with
  | [] =>
      rw [members] at whole
      cases whole
  | [only] =>
      rw [members] at whole covers
      obtain ⟨rfl, _⟩ := List.cons.inj covers
      exact counts whole
  | head :: next :: rest =>
      rw [members] at covers within
      obtain ⟨rfl, behind⟩ := List.cons.inj covers
      obtain ⟨rfl, _⟩ := List.cons.inj behind
      have inside := within first rfl second (by simp)
      omega

/-- The second event comes when the window of the first one is over. -/
theorem aggregation_merges_windows :
    ∃ transitions last, execute managerStep (windowStart 20 0 0) (batchAndTick 0 20 20) =
      some (transitions, last) ∧ ClockRuns transitions ∧
      ∀ pending, ¬AggregatesByLaw 20 (transitions.flatMap (membersOf 0))
        (transitions.flatMap (releasesOf 0)) pending := by
  have members : (execute managerStep (windowStart 20 0 0) (batchAndTick 0 20 20)).map
      (fun run => (run.1.flatMap (membersOf 0), run.1.flatMap (releasesOf 0))) =
      some ([⟨0, qsevSample 1 [1]⟩, ⟨20, qsevSample 1 [2]⟩], [⟨qsevSample 2 [1], false⟩]) := by
    decide
  have clock : ∀ run ∈ execute managerStep (windowStart 20 0 0) (batchAndTick 0 20 20),
      ClockRuns run.1 := by decide
  obtain ⟨⟨transitions, last⟩, ran, seen⟩ := Option.map_eq_some_iff.mp members
  obtain ⟨drawn, released⟩ := Prod.mk.inj seen
  refine ⟨transitions, last, ran, clock _ ran, fun pending => ?_⟩
  rw [drawn, released]
  exact not_byLaw_of_merged (by decide) (by decide)

end Runs

end Idsm.IdsM
