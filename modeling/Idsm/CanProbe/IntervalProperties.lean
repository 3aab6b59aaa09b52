import Idsm.CanProbe.PipelineProperties
import Idsm.CanProbe.IdListProperties
import Idsm.Foundation.Cooldown

/-! From the file of identifiers to the alerts: which frames are unknown, and which follow the
one before too early. -/

set_option autoImplicit false

namespace Idsm.CanProbe

open Idsm.Foundation

section File

variable {line : List UInt8} {lines : List (List UInt8)} {id : UInt32}

/-- The identifier that a line makes known. -/
def Verdict.adds : Verdict → Option UInt32
  | .blank => none
  | .badId => none
  | .badMin id => some id
  | .id id => some id
  | .both id _ => some id

/-- The interval that a line gives to an identifier. -/
def Verdict.limits (id : UInt32) : Verdict → Option UInt32
  | .both other min => if other = id then some min else none
  | _ => none

/-- The interval that the last of these lines gives. -/
def limit (lines : List (List UInt8)) (id : UInt32) : Option UInt32 :=
  lines.reverse.findSome? fun line => (verdictOf line).limits id

theorem limit_append : limit (lines ++ [line]) id =
    ((verdictOf line).limits id).or (limit lines id) := by
  rw [limit, List.reverse_append, List.reverse_singleton, List.singleton_append,
    List.findSome?_cons, limit]
  cases (verdictOf line).limits id <;> rfl

theorem mem_addKnown {tables : IdTables} {other : UInt32} :
    id ∈ (tables.addKnown other).known ↔ id ∈ tables.known ∨ id = other := by
  rw [IdTables.addKnown]
  split
  next known => exact ⟨.inl, fun either => either.elim (fun held => held) fun same => same ▸ known⟩
  next => simp

theorem addKnown_ids {tables : IdTables} {other : UInt32} :
    (tables.addKnown other).ids = tables.ids := by
  rw [IdTables.addKnown]
  split <;> rfl

theorem addMinInterval_known {tables : IdTables} {other min : UInt32} :
    (tables.addMinInterval other min).known = tables.known := by
  rw [IdTables.addMinInterval]
  split <;> rfl

theorem lookup_update {α : Type} (entries : List (UInt32 × α)) (change : α → α) (key : UInt32) :
    (entries.map fun (other, value) => (other, if other = key then change value else value)).lookup
        id =
      (entries.lookup id).map fun value => if id = key then change value else value := by
  induction entries with
  | nil => rfl
  | cons entry entries ih =>
      obtain ⟨other, value⟩ := entry
      rw [List.map_cons, List.lookup_cons, List.lookup_cons, ih]
      cases same : id == other with
      | false => rfl
      | true =>
          rw [eq_of_beq same]
          rfl

/-- An identifier that has an interval and was not seen yet. -/
def IdState.fresh (min : UInt32) : IdState := ⟨min, false, 0, 0⟩

theorem lookup_addMinInterval {tables : IdTables} {other min : UInt32} {held : Option UInt32}
    (fresh : tables.ids.lookup id = held.map IdState.fresh) :
    (tables.addMinInterval other min).ids.lookup id =
      (if other = id then some min else held).map IdState.fresh := by
  rw [IdTables.addMinInterval]
  split
  next present =>
    refine (lookup_update tables.ids (fun state => { state with minMs := min }) other).trans ?_
    rw [fresh]
    by_cases same : other = id
    · subst same
      cases held with
      | none =>
          obtain ⟨entry, member, named⟩ := List.mem_map.mp present
          have missing := List.lookup_eq_none_iff.mp fresh entry member
          simp [named] at missing
      | some held => simp [IdState.fresh]
    · have different : ¬ id = other := Ne.symm same
      cases held <;> simp [same, different]
  next absent =>
    rw [List.lookup_append, fresh]
    by_cases same : other = id
    · subst same
      have missing : tables.ids.lookup other = none := by
        rw [List.lookup_eq_none_iff]
        intro entry member
        simp only [bne_iff_ne, ne_eq]
        intro named
        exact absent (List.mem_map.mpr ⟨entry, member, named.symm⟩)
      rw [missing] at fresh
      simp [← fresh, IdState.fresh]
    · have different : (id == other) = false := by simpa using Ne.symm same
      simp [same, List.lookup_cons, different]

theorem loadIdsLines_append (tables : IdTables) :
    (loadIdsLines tables (lines ++ [line])).1 =
      (verdictOf line).apply (loadIdsLines tables lines).1 := by
  rw [loadIdsLines, List.foldl_append, ← loadIdsLines, List.foldl_cons, List.foldl_nil]
  exact congrArg Prod.fst (loadIdsLine_eq _ line)

/-- What a file leaves in the whitelist. -/
theorem known_loaded : id ∈ (loadIdsLines .empty lines).1.known ↔
    ∃ line ∈ lines, (verdictOf line).adds = some id := by
  induction lines using List.reverseRecOn with
  | nil => simp [loadIdsLines, IdTables.empty]
  | append_singleton lines line ih =>
      rw [loadIdsLines_append]
      have split : (∃ member ∈ lines ++ [line], (verdictOf member).adds = some id) ↔
          id ∈ (loadIdsLines .empty lines).1.known ∨ (verdictOf line).adds = some id := by
        rw [ih]
        simp [or_and_right, exists_or]
      rw [split]
      cases verdict : verdictOf line <;>
        simp [Verdict.apply, Verdict.adds, mem_addKnown, addMinInterval_known, eq_comm]

/-- What a file leaves in the table of the cycle check. -/
theorem ids_loaded : (loadIdsLines .empty lines).1.ids.lookup id =
    (limit lines id).map IdState.fresh := by
  induction lines using List.reverseRecOn with
  | nil => rfl
  | append_singleton lines line ih =>
      rw [loadIdsLines_append, limit_append]
      cases verdictOf line with
      | blank => exact ih
      | badId => exact ih
      | badMin other => exact (congrArg _ addKnown_ids).trans ih
      | id other => exact (congrArg _ addKnown_ids).trans ih
      | both other min =>
          refine (lookup_addMinInterval ((congrArg _ addKnown_ids).trans ih)).trans ?_
          rw [Verdict.limits]
          split <;> rfl

end File

section Runs

variable {cfg : PipelineConfig} {lines : List (List UInt8)} {before : List CanRecord}
  {record : CanRecord} {alert : ProbeAlert}

/-- A pipeline that read this file, after these records. -/
def loadedAfter (cfg : PipelineConfig) (lines : List (List UInt8)) (before : List CanRecord) :
    CanProbePipeline :=
  (recordPipeline cfg).after (.start (loadIdsLines .empty lines).1) before

def raises (cfg : PipelineConfig) (lines : List (List UInt8)) (before : List CanRecord)
    (record : CanRecord) : List ProbeAlert :=
  ((recordPipeline cfg).react (loadedAfter cfg lines before) record).2

/-- The frame of a record, if it reaches a detector. -/
def CanRecord.reaching (type : AlertType) (record : CanRecord) : Option Event :=
  record.frame.filter fun event => type.admits event.1

theorem reached_singleton (type : AlertType) (record : CanRecord) :
    type.reached [record] = (record.reaching type).toList := by
  rw [AlertType.reached, CanRecord.reaching, List.filterMap_cons]
  cases record.frame with
  | none => rfl
  | some event => cases admitted : type.admits event.1 <;> simp [admitted, Option.filter]

theorem reaching_eq_some {type : AlertType} {event : Event} :
    record.reaching type = some event ↔ record.frame = some (event.1, record.2) ∧
      type.admits event.1 = true ∧ event.2 = record.2 := by
  obtain ⟨f, time⟩ := event
  rw [CanRecord.reaching, Option.filter_eq_some_iff]
  constructor
  · rintro ⟨frame, admitted⟩
    obtain ⟨g, parses, same⟩ := Option.map_eq_some_iff.mp frame
    cases same
    exact ⟨frame, admitted, rfl⟩
  · rintro ⟨frame, admitted, time⟩
    cases time
    exact ⟨frame, admitted⟩

theorem mem_raises {type : AlertType} :
    (alert ∈ raises cfg lines before record ∧ alert.detectorType = type) ↔
      alert ∈ (raises cfg lines before record).filterMap (ofType type) :=
  mem_labelled.symm

theorem share_after (type : AlertType) : (loadedAfter cfg lines before).share type =
    (alone cfg type).after ((CanProbePipeline.start (loadIdsLines .empty lines).1).share type)
      (type.reached before) := by
  have kept := ((parsed cfg).comp (stage cfg type)).view_after
    (.start (loadIdsLines .empty lines).1) before
  rw [routed_records] at kept
  exact kept

/-- What a record raises of one type. -/
theorem raises_ofType (type : AlertType) :
    (raises cfg lines before record).filterMap (ofType type) =
      (alone cfg type).answers ((loadedAfter cfg lines before).share type)
        (record.reaching type).toList := by
  rw [raises, loadedAfter, react_ofType, ← reached_singleton, ← share_after]
  rfl

theorem share_append (type : AlertType) : (loadedAfter cfg lines (before ++ [record])).share type =
    (alone cfg type).after ((loadedAfter cfg lines before).share type)
      (record.reaching type).toList := by
  rw [share_after, reached_append, Reactor.after_append, ← share_after, reached_singleton]

theorem known_after : (loadedAfter cfg lines before).known =
    (loadIdsLines .empty lines).1.known := by
  have kept : (loadedAfter cfg lines before).known = _ :=
    @share_after cfg lines before .unknownId
  refine kept.trans ?_
  exact @Reactor.after_invariant _ _ _ (alone cfg .unknownId) _ (fun known => known = _) _
    (fun _ same => same) rfl

/-- A frame is reported as unknown exactly if the file made identifiers known and its own, which
is not one of the diagnostics, is not among them. -/
theorem unknown_reported_iff :
    (∃ alert ∈ raises cfg lines before record, alert.detectorType = .unknownId) ↔
      ∃ f, record.frame = some (f, record.2) ∧ f.err = false ∧ f.rtr = false ∧
        isDiagRequestId f.canId = false ∧ isDiagResponseId f.canId = false ∧
        (∃ line ∈ lines, (verdictOf line).adds.isSome = true) ∧
        ∀ line ∈ lines, (verdictOf line).adds ≠ some f.canId := by
  have some_known : UnknownId.enabled (loadIdsLines .empty lines).1.known = true ↔
      ∃ line ∈ lines, (verdictOf line).adds.isSome = true := by
    rw [UnknownId.enabled, Bool.not_eq_true', List.isEmpty_eq_false_iff_exists_mem]
    simp only [known_loaded, Option.isSome_iff_exists]
    constructor
    · rintro ⟨id, line, member, adds⟩
      exact ⟨line, member, id, adds⟩
    · rintro ⟨line, member, id, adds⟩
      exact ⟨id, line, member, adds⟩
  have here : (∃ alert ∈ raises cfg lines before record, alert.detectorType = .unknownId) ↔
      ∃ event, record.reaching .unknownId = some event ∧
        UnknownId.enabled (loadIdsLines .empty lines).1.known = true ∧
        event.1.canId ∉ (loadIdsLines .empty lines).1.known := by
    simp only [mem_raises, raises_ofType]
    cases record.reaching .unknownId with
    | none => simp
    | some event =>
        rw [Option.toList_some, Reactor.answers_singleton]
        simp only [alone, stateless, CanProbePipeline.share, known_after, Option.mem_toList,
          UnknownId.feed]
        by_cases enabled : UnknownId.enabled (loadIdsLines .empty lines).1.known = true <;>
          by_cases known : event.1.canId ∈ (loadIdsLines .empty lines).1.known <;>
          simp [enabled, known]
  simp only [here, some_known, reaching_eq_some, known_loaded, AlertType.admits,
    Bool.and_eq_true, Bool.not_eq_true']
  constructor
  · rintro ⟨event, ⟨frame, ⟨⟨⟨err, rtr⟩, request⟩, response⟩, _⟩, filled, absent⟩
    exact ⟨event.1, frame, err, rtr, request, response, filled,
      fun line member adds => absent ⟨line, member, adds⟩⟩
  · rintro ⟨f, frame, err, rtr, request, response, filled, absent⟩
    refine ⟨(f, record.2), ⟨frame, ⟨⟨⟨err, rtr⟩, request⟩, response⟩, rfl⟩, filled, ?_⟩
    rintro ⟨line, member, adds⟩
    exact absent line member adds

/-! Frames that come too early. -/

/-- When a data frame of this identifier came last. -/
def lastSeen (before : List CanRecord) (id : UInt32) : Option Nat :=
  before.reverse.findSome? fun record => (record.reaching .cycleAnomaly).bind fun event =>
    if event.1.canId = id then some event.2 else none

/-- The alert that is due when a frame follows the one before too early. -/
def early (lines : List (List UInt8)) (before : List CanRecord) (record : CanRecord) :
    Option (UInt32 × ProbeAlert) :=
  (record.reaching .cycleAnomaly).bind fun event =>
    (limit lines event.1.canId).bind fun min =>
      (lastSeen before event.1.canId).bind fun last =>
        if last ≤ event.2 ∧ event.2 - last < min.toNat then
          some (event.1.canId, frameAlert .cycleAnomaly event.1 (.ofNat (event.2 - last)))
        else none

def earlyAlarm (cfg : PipelineConfig) (lines : List (List UInt8)) :
    Alarm CanRecord UInt32 ProbeAlert :=
  ⟨Prod.snd, cfg.cycle.cooldownMs.toNat, early lines⟩

/-- A time whose rest ends before the clock does. -/
def CanRecord.Fits (cfg : PipelineConfig) (record : CanRecord) : Prop :=
  record.2 + cfg.cycle.cooldownMs.toNat < 2 ^ 64

theorem lookup_feed (ids : List (UInt32 × IdState)) (f : CanFrame) (now : UInt64) (id : UInt32) :
    (CycleAnomaly.feed cfg.cycle ids f now).1.lookup id =
      (ids.lookup id).map fun st => if id = f.canId then (st.feed cfg.cycle f now).1 else st := by
  rw [CycleAnomaly.feed]
  cases held : ids.lookup f.canId with
  | none =>
      by_cases same : id = f.canId
      · rw [same, held]
        rfl
      · simp [same]
  | some st =>
      refine (lookup_update ids (fun _ => (st.feed cfg.cycle f now).1) f.canId).trans ?_
      by_cases same : id = f.canId
      · rw [same, held]
        rfl
      · simp [same]

theorem feed_alert (ids : List (UInt32 × IdState)) (f : CanFrame) (now : UInt64) :
    (CycleAnomaly.feed cfg.cycle ids f now).2 =
      (ids.lookup f.canId).bind fun st => (st.feed cfg.cycle f now).2 := by
  rw [CycleAnomaly.feed]
  cases ids.lookup f.canId <;> rfl

theorem cycle_append : (loadedAfter cfg lines (before ++ [record])).cycle =
    match record.reaching .cycleAnomaly with
    | none => (loadedAfter cfg lines before).cycle
    | some event => (CycleAnomaly.feed cfg.cycle (loadedAfter cfg lines before).cycle event.1
        (.ofNat event.2)).1 := by
  refine (@share_append cfg lines before record .cycleAnomaly).trans ?_
  cases record.reaching .cycleAnomaly <;> rfl

theorem raises_cycle : (raises cfg lines before record).filterMap (ofType .cycleAnomaly) =
    ((record.reaching .cycleAnomaly).bind fun event =>
      (CycleAnomaly.feed cfg.cycle (loadedAfter cfg lines before).cycle event.1
        (.ofNat event.2)).2).toList := by
  rw [raises_ofType]
  cases record.reaching .cycleAnomaly with
  | none => rfl
  | some event => exact Reactor.answers_singleton

theorem lastSeen_append (id : UInt32) : lastSeen (before ++ [record]) id =
    ((record.reaching .cycleAnomaly).bind fun event =>
      if event.1.canId = id then some event.2 else none).or (lastSeen before id) := by
  rw [lastSeen, List.reverse_append, List.reverse_singleton, List.singleton_append,
    List.findSome?_cons, lastSeen]
  split
  next found => rw [found]; rfl
  next missing => rw [missing]; rfl

/-- What the table holds of an identifier with this interval and this last frame. -/
structure IdState.Stands (min : UInt32) (last : Option Nat) (st : IdState) : Prop where
  min : st.minMs = min
  seen : st.seen = last.isSome
  last : ∀ time, last = some time → time < 2 ^ 64 ∧ st.lastMs = .ofNat time

theorem IdState.Stands.feed {min : UInt32} {last : Option Nat} {st : IdState} {f : CanFrame}
    {time : Nat} (stands : st.Stands min last) (small : time < 2 ^ 64) :
    (st.feed cfg.cycle f (.ofNat time)).1.Stands min (some time) := by
  rw [IdState.feed]
  split
  · exact ⟨stands.min, rfl, fun _ same => by cases same; exact ⟨small, rfl⟩⟩
  · exact ⟨stands.min, rfl, fun _ same => by cases same; exact ⟨small, rfl⟩⟩

/-- The table behind a run: the identifiers with an interval, each with its last frame. -/
theorem cycle_stands (fit : ∀ member ∈ before, member.Fits cfg) (id : UInt32) :
    match limit lines id with
    | none => (loadedAfter cfg lines before).cycle.lookup id = none
    | some min => ∃ st, (loadedAfter cfg lines before).cycle.lookup id = some st ∧
        st.Stands min (lastSeen before id) := by
  induction before using List.reverseRecOn with
  | nil =>
      have start : (loadedAfter cfg lines []).cycle.lookup id = (limit lines id).map .fresh :=
        ids_loaded
      rw [start]
      cases limit lines id with
      | none => rfl
      | some min =>
          exact ⟨_, rfl, rfl, rfl, fun _ impossible => by cases impossible⟩
  | append_singleton before record ih =>
      have held := ih fun member place => fit member (List.mem_append_left _ place)
      rw [cycle_append, lastSeen_append]
      cases reaches : record.reaching .cycleAnomaly with
      | none => exact held
      | some event =>
          have time := (reaching_eq_some.mp reaches).2.2
          have fits : record.2 + cfg.cycle.cooldownMs.toNat < 2 ^ 64 :=
            fit record (List.mem_append_right _ (List.mem_singleton.mpr rfl))
          have small : event.2 < 2 ^ 64 := by omega
          simp only [lookup_feed, Option.bind_some]
          cases limited : limit lines id with
          | none =>
              rw [limited] at held
              simp only [] at held
              rw [held]
              rfl
          | some min =>
              rw [limited] at held
              obtain ⟨st, entry, stands⟩ := held
              rw [entry]
              by_cases same : id = event.1.canId
              · refine ⟨_, rfl, ?_⟩
                dsimp only
                rw [if_pos same, if_pos same.symm]
                exact stands.feed small
              · refine ⟨_, rfl, ?_⟩
                dsimp only
                rw [if_neg same, if_neg (Ne.symm same)]
                exact stands

/-- What a frame does to the entry of its identifier. -/
theorem IdState.Stands.feed_eq {min : UInt32} {last : Option Nat} {st : IdState} {f : CanFrame}
    {time : Nat} (stands : st.Stands min last) (small : time < 2 ^ 64) :
    (st.feed cfg.cycle f (.ofNat time)).1.mutedUntil =
        (if (∃ s ∈ last, s ≤ time ∧ time - s < min.toNat) ∧ st.mutedUntil.toNat ≤ time then
          .ofNat (time + cfg.cycle.cooldownMs.toNat) else st.mutedUntil) ∧
      (st.feed cfg.cycle f (.ofNat time)).2 =
        last.bind fun s => if (s ≤ time ∧ time - s < min.toNat) ∧ st.mutedUntil.toNat ≤ time then
          some (frameAlert .cycleAnomaly f (.ofNat (time - s))) else none := by
  have now : (UInt64.ofNat time).toNat = time := UInt64.toNat_ofNat_of_lt' small
  have mutes : st.mutedUntil ≤ .ofNat time ↔ st.mutedUntil.toNat ≤ time := by
    rw [UInt64.le_iff_toNat_le, now]
  rw [IdState.feed]
  cases last with
  | none =>
      have unseen : st.seen = false := stands.seen
      simp [unseen]
  | some s =>
      have seen : st.seen = true := stands.seen
      obtain ⟨before, held⟩ := stands.last s rfl
      have then_ : (UInt64.ofNat s).toNat = s := UInt64.toNat_ofNat_of_lt' before
      have ordered : st.lastMs ≤ .ofNat time ↔ s ≤ time := by
        rw [UInt64.le_iff_toNat_le, held, now, then_]
      have rest : UInt64.ofNat time + cfg.cycle.cooldownMs.toUInt64 =
          .ofNat (time + cfg.cycle.cooldownMs.toNat) := by
        rw [UInt64.ofNat_add]
        exact congrArg _ (UInt64.ofNat_uInt32ToNat _).symm
      by_cases order : s ≤ time
      · have gap : (UInt64.ofNat time - st.lastMs).toNat = time - s := by
          rw [UInt64.toNat_sub_of_le _ _ (ordered.mpr order), held, now, then_]
        have close : UInt64.ofNat time - st.lastMs < st.minMs.toUInt64 ↔ time - s < min.toNat := by
          rw [UInt64.lt_iff_toNat_lt, gap, UInt32.toNat_toUInt64, stands.min]
        have interval : (UInt64.ofNat time - st.lastMs).toUInt32 = .ofNat (time - s) := by
          rw [← UInt32.toNat_inj, UInt64.toNat_toUInt32, gap, UInt32.toNat_ofNat']
        simp only [seen, ordered, order, close, mutes, rest, interval, true_and,
          Option.mem_def, Option.some.injEq, exists_eq_left', Option.bind_some]
        split_ifs <;> exact ⟨rfl, rfl⟩
      · simp [ordered, order]

def mutesId (cfg : PipelineConfig) (lines : List (List UInt8)) (before : List CanRecord)
    (id : UInt32) (now : Nat) : Bool :=
  ((loadedAfter cfg lines before).cycle.lookup id).any fun st => now < st.mutedUntil.toNat

def soundsEarly (cfg : PipelineConfig) (lines : List (List UInt8)) (before : List CanRecord)
    (record : CanRecord) : Option ProbeAlert :=
  (record.reaching .cycleAnomaly).bind fun event =>
    (CycleAnomaly.feed cfg.cycle (loadedAfter cfg lines before).cycle event.1 (.ofNat event.2)).2

/-- A frame of an identifier with an interval: it sounds if it is early and the identifier is not
mute, and only then it mutes the identifier. -/
theorem cycle_step {event : Event} {min : UInt32} {st : IdState}
    (reaches : record.reaching .cycleAnomaly = some event)
    (entry : (loadedAfter cfg lines before).cycle.lookup event.1.canId = some st)
    (stands : st.Stands min (lastSeen before event.1.canId)) (small : event.2 < 2 ^ 64) :
    soundsEarly cfg lines before record =
        ((lastSeen before event.1.canId).bind fun s =>
          if (s ≤ event.2 ∧ event.2 - s < min.toNat) ∧ st.mutedUntil.toNat ≤ event.2 then
            some (frameAlert .cycleAnomaly event.1 (.ofNat (event.2 - s))) else none) ∧
      ∀ id now, mutesId cfg lines (before ++ [record]) id now =
        if id = event.1.canId ∧ (∃ s ∈ lastSeen before event.1.canId,
            s ≤ event.2 ∧ event.2 - s < min.toNat) ∧ st.mutedUntil.toNat ≤ event.2 then
          decide (now < (UInt64.ofNat (event.2 + cfg.cycle.cooldownMs.toNat)).toNat)
        else mutesId cfg lines before id now := by
  obtain ⟨muted, sounds⟩ := @IdState.Stands.feed_eq cfg _ _ _ event.1 _ stands small
  constructor
  · rw [soundsEarly, reaches, Option.bind_some, feed_alert, entry, Option.bind_some, sounds]
  · intro id now
    rw [mutesId, cycle_append, reaches]
    simp only [lookup_feed]
    by_cases same : id = event.1.canId
    · subst same
      rw [entry, Option.map_some, if_pos rfl, Option.any_some, muted, mutesId, entry,
        Option.any_some]
      simp only [true_and]
      split <;> rfl
    · simp only [same, if_false, false_and, Option.map_id', mutesId]

/-- A record is early or does nothing. -/
theorem early_cases (fit : ∀ member ∈ before ++ [record], member.Fits cfg) :
    (early lines before record = none ∧ soundsEarly cfg lines before record = none ∧
      ∀ id now, mutesId cfg lines (before ++ [record]) id now = mutesId cfg lines before id now) ∨
    ∃ key alert, early lines before record = some (key, alert) ∧
      soundsEarly cfg lines before record =
        (if mutesId cfg lines before key record.2 then none else some alert) ∧
      ∀ id now, mutesId cfg lines (before ++ [record]) id now =
        if id = key ∧ mutesId cfg lines before key record.2 = false then
          decide (now < record.2 + cfg.cycle.cooldownMs.toNat)
        else mutesId cfg lines before id now := by
  cases reaches : record.reaching .cycleAnomaly with
  | none =>
      refine .inl ⟨by rw [early, reaches]; rfl, by rw [soundsEarly, reaches]; rfl, ?_⟩
      intro id now
      rw [mutesId, cycle_append, reaches]
      rfl
  | some event =>
      have time := (reaching_eq_some.mp reaches).2.2
      have fits : record.2 + cfg.cycle.cooldownMs.toNat < 2 ^ 64 :=
        fit record (List.mem_append_right _ (List.mem_singleton.mpr rfl))
      have held := @cycle_stands cfg lines before
        (fun member place => fit member (List.mem_append_left _ place)) event.1.canId
      cases limited : limit lines event.1.canId with
      | none =>
          rw [limited] at held
          have missing : (loadedAfter cfg lines before).cycle.lookup event.1.canId = none := held
          refine .inl ⟨by rw [early, reaches, Option.bind_some, limited]; rfl, ?_, ?_⟩
          · rw [soundsEarly, reaches, Option.bind_some, feed_alert, missing]
            rfl
          · intro id now
            rw [mutesId, cycle_append, reaches]
            simp only [lookup_feed]
            by_cases same : id = event.1.canId
            · rw [same, missing, mutesId, missing]
              rfl
            · simp only [same, if_false, Option.map_id', mutesId]
      | some min =>
          rw [limited] at held
          obtain ⟨st, entry, stands⟩ := held
          obtain ⟨sounds, mutes⟩ := cycle_step reaches entry stands (by omega)
          have mute : mutesId cfg lines before event.1.canId record.2 =
              decide (record.2 < st.mutedUntil.toNat) := by
            rw [mutesId, entry, Option.any_some]
          have due : early lines before record =
              (lastSeen before event.1.canId).bind fun last =>
                if last ≤ event.2 ∧ event.2 - last < min.toNat then
                  some (event.1.canId, frameAlert .cycleAnomaly event.1 (.ofNat (event.2 - last)))
                else none := by
            rw [early, reaches, Option.bind_some, limited, Option.bind_some]
          rw [time] at sounds mutes due
          rw [UInt64.toNat_ofNat_of_lt' fits] at mutes
          rw [due]
          cases before' : lastSeen before event.1.canId with
          | none =>
              rw [before'] at sounds mutes
              exact .inl ⟨rfl, sounds, fun id now => by simp [mutes]⟩
          | some last =>
              rw [before'] at sounds mutes
              by_cases close : last ≤ record.2 ∧ record.2 - last < min.toNat
              · refine .inr ⟨event.1.canId, _, if_pos close, ?_, ?_⟩
                · rw [sounds, mute]
                  by_cases mute : record.2 < st.mutedUntil.toNat <;>
                    simp [close, mute, Nat.not_le.mpr, Nat.le_of_not_lt]
                · intro id now
                  rw [mutes, mute]
                  simp [close]
              · refine .inl ⟨if_neg close, ?_, ?_⟩
                · rw [sounds]
                  simp [close]
                · intro id now
                  rw [mutes]
                  simp [close]

theorem earlyAlarm_obeyed : (earlyAlarm cfg lines).Obeyed (CanRecord.Fits cfg)
    (soundsEarly cfg lines) (mutesId cfg lines) where
  fresh := by
    intro id now
    have start : (loadedAfter cfg lines []).cycle.lookup id = (limit lines id).map .fresh :=
      ids_loaded
    rw [mutesId, start]
    cases limit lines id <;> rfl
  quiet := by
    intro before record fit silent
    rcases early_cases fit with ⟨_, nothing, same⟩ | ⟨key, alert, due, _⟩
    · exact ⟨nothing, same⟩
    · cases silent.symm.trans due
  muted := by
    intro before record key alert fit due mute
    rcases early_cases fit with ⟨silent, _⟩ | ⟨key', alert', due', sounds, mutes⟩
    · cases silent.symm.trans due
    · cases due.symm.trans due'
      have mute' : mutesId cfg lines before key record.2 = true := mute
      rw [sounds, mute']
      refine ⟨rfl, fun id now => ?_⟩
      rw [mutes, mute']
      simp
  sounded := by
    intro before record key alert fit due loud
    rcases early_cases fit with ⟨silent, _⟩ | ⟨key', alert', due', sounds, mutes⟩
    · cases silent.symm.trans due
    · cases due.symm.trans due'
      have loud' : mutesId cfg lines before key record.2 = false := loud
      rw [sounds, loud']
      refine ⟨rfl, fun now _ => ?_, fun other now different => ?_⟩
      · rw [mutes, if_pos ⟨rfl, loud'⟩]
        exact decide_eq_true_iff
      · rw [mutes, if_neg fun both => different both.1]

theorem mem_raises_early : (alert ∈ raises cfg lines before record ∧
    alert.detectorType = .cycleAnomaly) ↔ soundsEarly cfg lines before record = some alert := by
  rw [mem_raises, raises_cycle, Option.mem_toList]
  rfl

theorem early_eq_some {key : UInt32} : early lines before record = some (key, alert) ↔
    ∃ event min last, record.reaching .cycleAnomaly = some event ∧ key = event.1.canId ∧
      limit lines event.1.canId = some min ∧ lastSeen before event.1.canId = some last ∧
      last ≤ event.2 ∧ event.2 - last < min.toNat ∧
      alert = frameAlert .cycleAnomaly event.1 (.ofNat (event.2 - last)) := by
  simp only [early, Option.bind_eq_some_iff, Option.ite_none_right_eq_some, Option.some.injEq,
    Prod.mk.injEq]
  constructor
  · rintro ⟨event, reaches, min, limited, last, seen, ⟨order, close⟩, same, named⟩
    exact ⟨event, min, last, reaches, same.symm, limited, seen, order, close, named.symm⟩
  · rintro ⟨event, min, last, reaches, same, limited, seen, order, close, named⟩
    exact ⟨event, reaches, min, limited, last, seen, ⟨order, close⟩, same.symm, named.symm⟩

theorem lastSeen_le {id : UInt32} {last : Nat}
    (inOrder : (before ++ [record]).Pairwise fun first second => first.2 ≤ second.2)
    (seen : lastSeen before id = some last) : last ≤ record.2 := by
  obtain ⟨member, place, found⟩ := List.exists_of_findSome?_eq_some seen
  obtain ⟨event, reaches, same⟩ := Option.bind_eq_some_iff.mp found
  have time := (reaching_eq_some.mp reaches).2.2
  have order := (List.pairwise_append.mp inOrder).2.2 member (List.mem_reverse.mp place) record
    (List.mem_singleton.mpr rfl)
  split at same
  · cases same
    omega
  · cases same

/-- A data frame is reported as early exactly if it follows the one before of its identifier
within the interval that the file gives it, and every such report of the identifier is a cooldown
ago. -/
theorem early_reported_iff
    (inOrder : (before ++ [record]).Pairwise fun first second => first.2 ≤ second.2)
    (fit : ∀ member ∈ before ++ [record], member.2 + cfg.cycle.cooldownMs.toNat < 2 ^ 64) :
    (alert ∈ raises cfg lines before record ∧ alert.detectorType = .cycleAnomaly) ↔
      ∃ f min last, record.frame = some (f, record.2) ∧ f.err = false ∧ f.rtr = false ∧
        limit lines f.canId = some min ∧ lastSeen before f.canId = some last ∧
        record.2 - last < min.toNat ∧
        alert = frameAlert .cycleAnomaly f (.ofNat (record.2 - last)) ∧
        ∀ prior earlier later, before = prior ++ earlier :: later →
          ∀ reported ∈ raises cfg lines prior earlier,
            reported.detectorType = .cycleAnomaly → reported.canId = f.canId →
            earlier.2 + cfg.cycle.cooldownMs.toNat ≤ record.2 := by
  have obeyed := @earlyAlarm_obeyed cfg lines
  rw [mem_raises_early, obeyed.sounds_iff inOrder fit]
  constructor
  · rintro ⟨key, due, rested⟩
    obtain ⟨event, min, last, reaches, same, limited, seen, _, close, named⟩ :=
      early_eq_some.mp due
    obtain ⟨frame, admitted, time⟩ := reaching_eq_some.mp reaches
    obtain ⟨err, rtr⟩ : event.1.err = false ∧ event.1.rtr = false := by
      simpa [AlertType.admits] using admitted
    rw [time] at close named
    refine ⟨event.1, min, last, frame, err, rtr, limited, seen, close, named, ?_⟩
    intro prior earlier later split reported member typed sameId
    have heard := mem_raises_early.mp ⟨member, typed⟩
    have front : prior ++ [earlier] <+: before ++ [record] :=
      ⟨later ++ [record], by rw [split]; simp⟩
    obtain ⟨key', triggered, _⟩ := (obeyed.sounds_iff (inOrder.sublist front.sublist)
      fun member place => fit member (front.subset place)).mp heard
    obtain ⟨event', _, _, _, same', _, _, _, _, named'⟩ := early_eq_some.mp triggered
    have equal : key' = key := by
      rw [same', same, ← sameId, named']
      rfl
    exact rested prior earlier later split reported heard (equal ▸ triggered)
  · rintro ⟨f, min, last, frame, err, rtr, limited, seen, close, named, rested⟩
    refine ⟨f.canId, early_eq_some.mpr ⟨(f, record.2), min, last, reaching_eq_some.mpr
      ⟨frame, by simp [AlertType.admits, err, rtr], rfl⟩, rfl, limited, seen,
      lastSeen_le inOrder seen, close, named⟩, ?_⟩
    intro prior earlier later split answer heard triggered
    obtain ⟨member, typed⟩ := mem_raises_early.mpr heard
    refine rested prior earlier later split answer member typed ?_
    obtain ⟨event, _, _, _, same, _, _, _, _, named'⟩ := early_eq_some.mp triggered
    rw [named', same]
    rfl

/-- A second frame of an identifier that needs twenty milliseconds, after ten. -/
theorem early_reported_sample :
    frameAlert .cycleAnomaly ⟨1, false, false, false, false, 0, 0, .ofFn fun _ => 0⟩ 10 ∈
        raises {} [[49, 32, 50, 48]] [([1] ++ List.replicate 15 0, 5)]
          ([1] ++ List.replicate 15 0, 15) ∧
      AlertType.cycleAnomaly = .cycleAnomaly := by
  refine (early_reported_iff (by decide) (by decide)).2
    ⟨_, 20, 5, rfl, rfl, rfl, ?_, ?_, ?_, ?_, ?_⟩
  · decide
  · decide
  · decide
  · rfl
  · intro prior earlier later split reported member
    have silent : raises {} [[49, 32, 50, 48]] [] ([1] ++ List.replicate 15 0, 5) = [] := by
      decide
    cases prior with
    | nil =>
        cases split
        rw [silent] at member
        cases member
    | cons first prior =>
        cases prior <;> cases split

end Runs

end Idsm.CanProbe
