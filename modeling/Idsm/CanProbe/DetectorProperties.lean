import Idsm.CanProbe.Detectors
import Idsm.Foundation.Windows

/-! The windowed detectors against windows that the first frame opens and that end `windowMs`
later. A start of zero stands for no window, so a window opened at time zero may lose its start. -/

set_option autoImplicit false

namespace Idsm.CanProbe

open Idsm.Foundation

namespace Watch

variable (watch : Watch)

def sees (key : Nat) (event : Event) : Bool := watch.counts event.1 && watch.key event.1 == key

/-- The key's window after these events. -/
def window (events : List Event) (key : Nat) : List Event :=
  currentWindow Prod.snd watch.windowMs.toNat (events.filter (watch.sees key))

/-- Even a threshold of zero needs an event. -/
def least (f : CanFrame) : Nat := max 1 (watch.threshold (watch.kind f)).toNat

def Reaches (window : List Event) (event : Event) : Prop :=
  watch.measure (watch.kind event.1) window < watch.least event.1 ∧
    watch.least event.1 ≤ watch.measure (watch.kind event.1) (window ++ [event])

/-- The part of a window an event at this time joins. -/
def kept (window : List Event) (nowMs : Nat) : List Event :=
  match window with
  | [] => []
  | first :: rest => if nowMs < first.2 + watch.windowMs.toNat then first :: rest else []

/-- The law of one event after the events before it. -/
structure TumblingAt (alert : List Event → Event → Option CanAlert) (before : List Event)
    (event : Event) : Prop where
  crossing : (alert before event).isSome = true ↔ watch.counts event.1 = true ∧
    watch.Reaches (watch.kept (watch.window before (watch.key event.1)) event.2) event
  counted : ∀ raised ∈ alert before event, raised.count = UInt32.ofNat
    (watch.measure (watch.kind event.1) (watch.window (before ++ [event]) (watch.key event.1)))
  enough : (alert before event).isSome = true →
    (watch.threshold (watch.kind event.1)).toNat ≤
        watch.measure (watch.kind event.1) (watch.window (before ++ [event]) (watch.key event.1)) ∧
      ∀ member ∈ watch.window (before ++ [event]) (watch.key event.1),
        event.2 < member.2 + watch.windowMs.toNat
  once : (alert before event).isSome = true → ∀ prior earlier after,
    before = prior ++ earlier :: after → watch.kind earlier.1 = watch.kind event.1 →
    watch.key earlier.1 = watch.key event.1 →
    watch.window (prior ++ [earlier]) (watch.key event.1) <+:
      watch.kept (watch.window before (watch.key event.1)) event.2 →
    alert prior earlier = none

/-- A window opened at time zero is not over, or it is over as well from its first later frame. -/
def Clear (before : List Event) (event : Event) : Prop :=
  ∀ first ∈ (watch.window before (watch.key event.1)).head?, first.2 = 0 →
    watch.windowMs.toNat ≤ event.2 →
    ∃ member ∈ watch.window before (watch.key event.1), member.2 ≠ 0 ∧
      member.2 + watch.windowMs.toNat ≤ event.2

end Watch

def stateAfter {σ : Type} (initial : σ) (feed : σ → CanFrame → Nat → σ × Option CanAlert)
    (events : List Event) : σ :=
  events.foldl (fun state event => (feed state event.1 event.2).1) initial

/-- The alert for an event, after the events before it. -/
def alertAfter {σ : Type} (initial : σ) (feed : σ → CanFrame → Nat → σ × Option CanAlert)
    (before : List Event) (event : Event) : Option CanAlert :=
  (feed (stateAfter initial feed before) event.1 event.2).2

def Detector.alert : Detector → List Event → Event → Option CanAlert
  | .idFlood cfg => alertAfter .empty (IdFlood.feed cfg)
  | .busFlood cfg => alertAfter ⟨0, .zero⟩ (BusFlood.feed cfg)
  | .errorBurst cfg => alertAfter ⟨0, .zero⟩ (ErrorBurst.feed cfg)
  | .diagFlood cfg => alertAfter .empty (DiagFlood.feed cfg)
  | .udsSecAccess cfg => alertAfter .empty (UdsSecAccess.feed cfg)
  | .udsSvcScan cfg => alertAfter .empty (UdsSvcScan.feed cfg)

/-! The window a state stands for. -/

/-- The first time that is not zero. -/
def mark : List Event → Nat
  | [] => 0
  | event :: rest => if event.2 = 0 then mark rest else event.2

theorem mark_append (window : List Event) (event : Event) :
    mark (window ++ [event]) = if mark window = 0 then event.2 else mark window := by
  induction window with
  | nil => by_cases zero : event.2 = 0 <;> simp [mark, zero]
  | cons first rest ih =>
      by_cases zero : first.2 = 0
      · simpa [mark, zero] using ih
      · simp [mark, zero]

theorem mark_mem {window : List Event} (marked : mark window ≠ 0) :
    ∃ member ∈ window, member.2 = mark window := by
  induction window with
  | nil => exact absurd rfl marked
  | cons first rest ih =>
      by_cases zero : first.2 = 0
      · rw [mark, if_pos zero] at marked ⊢
        obtain ⟨member, place, same⟩ := ih marked
        exact ⟨member, List.mem_cons_of_mem first place, same⟩
      · exact ⟨first, List.mem_cons_self, by rw [mark, if_neg zero]⟩

abbrev InTime (events : List Event) : Prop :=
  events.Pairwise fun first second => first.2 ≤ second.2

theorem mark_le {window : List Event} {member : Event} (inTime : InTime window)
    (place : member ∈ window) (later : member.2 ≠ 0) :
    mark window ≠ 0 ∧ mark window ≤ member.2 := by
  induction window with
  | nil => cases place
  | cons first rest ih =>
      rw [InTime, List.pairwise_cons] at inTime
      by_cases zero : first.2 = 0
      · rw [mark, if_pos zero]
        cases place with
        | head => exact absurd zero later
        | tail _ place => exact ih inTime.2 place
      · rw [mark, if_neg zero]
        refine ⟨zero, ?_⟩
        cases place with
        | head => exact Nat.le_refl _
        | tail _ place => exact inTime.1 member place

section Window

variable {watch : Watch} {before : List Event} {event : Event} {key : Nat}

theorem joinWindow_eq_kept (window : List Event) (event : Event) :
    joinWindow Prod.snd watch.windowMs.toNat window event =
      watch.kept window event.2 ++ [event] := by
  cases window with
  | nil => rfl
  | cons first rest =>
      by_cases inside : event.2 < first.2 + watch.windowMs.toNat
      · simp [joinWindow, Watch.kept, inside]
      · simp [joinWindow, Watch.kept, inside]

theorem window_seen (seen : watch.sees key event = true) :
    watch.window (before ++ [event]) key =
      watch.kept (watch.window before key) event.2 ++ [event] := by
  rw [Watch.window, List.filter_append, List.filter_cons_of_pos seen, List.filter_nil,
    currentWindow_append, joinWindow_eq_kept]
  rfl

theorem window_unseen (unseen : watch.sees key event = false) :
    watch.window (before ++ [event]) key = watch.window before key := by
  rw [Watch.window, List.filter_append, List.filter_cons_of_neg (by simp [unseen]),
    List.filter_nil, List.append_nil]
  rfl

theorem kept_front (window : List Event) (nowMs : Nat) : watch.kept window nowMs <+: window := by
  cases window with
  | nil => exact List.prefix_refl _
  | cons first rest =>
      rw [Watch.kept]
      split
      · exact List.prefix_refl _
      · exact List.nil_prefix

theorem window_sublist (watch : Watch) (events : List Event) (key : Nat) :
    (watch.window events key).Sublist events := by
  induction events using List.reverseRecOn with
  | nil => exact List.Sublist.refl _
  | append_singleton events event ih =>
      cases seen : watch.sees key event with
      | true =>
          rw [window_seen seen]
          exact ((kept_front _ _).sublist.trans ih).append (List.Sublist.refl _)
      | false =>
          rw [window_unseen seen]
          exact ih.trans (List.sublist_append_left _ _)

end Window

section Runs

variable {δ σ : Type} (watch : Watch) (cleared : δ)
  (add : CanFrame → δ → δ × Option CanAlert) (stands : δ → List Event → Prop)

/-- What a detector holds stands for its window, and alerts as the window grows to the least. -/
structure Stands : Prop where
  cleared : stands cleared []
  added : ∀ {held window event}, watch.counts event.1 = true → stands held window →
    stands (add event.1 held).1 (window ++ [event])
  reached : ∀ {held window event}, watch.counts event.1 = true → stands held window →
    ((add event.1 held).2.isSome = true ↔ watch.Reaches window event)
  counted : ∀ {held window event raised}, watch.counts event.1 = true → stands held window →
    (add event.1 held).2 = some raised → raised.count = UInt32.ofNat
      (watch.measure (watch.kind event.1) (window ++ [event]))

/-- The detector's state is one window for each key. -/
structure Feeds (look : σ → Nat → WindowState δ) (initial : σ)
    (feed : σ → CanFrame → Nat → σ × Option CanAlert) : Prop where
  initial : ∀ key, look initial key = ⟨0, cleared⟩
  other : ∀ {state f nowMs}, watch.counts f = false → feed state f nowMs = (state, none)
  alert : ∀ {state f nowMs}, watch.counts f = true → (feed state f nowMs).2 =
    (feedWindow watch.windowMs cleared (add f) (look state (watch.key f)) nowMs).2
  look : ∀ {state f nowMs key}, watch.counts f = true → look (feed state f nowMs).1 key =
    if watch.key f = key then
      (feedWindow watch.windowMs cleared (add f) (look state (watch.key f)) nowMs).1
    else look state key

def Holds (st : WindowState δ) (window : List Event) : Prop :=
  st.windowStart = mark window ∧ stands st.held window

variable {watch cleared add stands} {window : List Event} {st : WindowState δ} {event : Event}

/-- Entering leaves the part of the window that the event joins. -/
theorem enter_holds (law : Stands watch cleared add stands) (positive : watch.windowMs ≠ 0)
    (inTime : InTime window) (late : ∀ member ∈ window, member.2 ≤ event.2)
    (clear : ∀ first ∈ window.head?, first.2 = 0 → watch.windowMs.toNat ≤ event.2 →
      ∃ member ∈ window, member.2 ≠ 0 ∧ member.2 + watch.windowMs.toNat ≤ event.2)
    (holds : Holds stands st window) :
    (st.enter watch.windowMs cleared event.2).windowStart =
        mark (watch.kept window event.2 ++ [event]) ∧
      stands (st.enter watch.windowMs cleared event.2).held (watch.kept window event.2) := by
  have length : 0 < watch.windowMs.toNat := by
    refine Nat.pos_of_ne_zero fun zero => positive ?_
    exact UInt32.toNat_inj.mp zero
  obtain ⟨start, held⟩ := holds
  have alone : mark [event] = event.2 := by
    by_cases zero : event.2 = 0 <;> simp [mark, zero]
  have within : ∀ {opened : Nat},
      (if st.windowStart = 0 then event.2 else st.windowStart) = opened →
      event.2 - opened < watch.windowMs.toNat →
      st.enter watch.windowMs cleared event.2 = ⟨opened, st.held⟩ := by
    rintro opened rfl inside
    exact if_neg (Nat.not_le.mpr inside)
  cases window with
  | nil =>
      have none : st.windowStart = 0 := start
      rw [within (if_pos none) (by omega), Watch.kept, List.nil_append, alone]
      exact ⟨rfl, held⟩
  | cons first rest =>
      have before : first.2 ≤ event.2 := late first List.mem_cons_self
      by_cases inside : event.2 < first.2 + watch.windowMs.toNat
      · have kept : watch.kept (first :: rest) event.2 = first :: rest := if_pos inside
        have entered : event.2 - mark (first :: rest ++ [event]) < watch.windowMs.toNat := by
          rw [mark_append]
          by_cases zero : mark (first :: rest) = 0
          · rw [if_pos zero]
            omega
          · rw [if_neg zero]
            obtain ⟨member, place, same⟩ := mark_mem zero
            have least : first.2 ≤ member.2 := by
              cases place with
              | head => exact Nat.le_refl _
              | tail _ place => exact (List.pairwise_cons.mp inTime).1 member place
            omega
        rw [kept, within (by rw [start, mark_append]) entered]
        exact ⟨rfl, held⟩
      · have kept : watch.kept (first :: rest) event.2 = [] := if_neg inside
        have opened : mark (first :: rest) ≠ 0 ∧
            mark (first :: rest) + watch.windowMs.toNat ≤ event.2 := by
          by_cases zero : first.2 = 0
          · obtain ⟨member, place, later, beyond⟩ := clear first rfl zero (by omega)
            obtain ⟨marked, least⟩ := mark_le inTime place later
            exact ⟨marked, by omega⟩
          · rw [mark, if_neg zero]
            exact ⟨zero, by omega⟩
        have left : st.enter watch.windowMs cleared event.2 = ⟨event.2, cleared⟩ := by
          refine if_pos ?_
          rw [start, if_neg opened.1]
          omega
        rw [kept, left, List.nil_append, alone]
        exact ⟨rfl, law.cleared⟩

/-- One event for the window of its key. -/
theorem feedWindow_holds (law : Stands watch cleared add stands) (positive : watch.windowMs ≠ 0)
    (counts : watch.counts event.1 = true) (inTime : InTime window)
    (late : ∀ member ∈ window, member.2 ≤ event.2)
    (clear : ∀ first ∈ window.head?, first.2 = 0 → watch.windowMs.toNat ≤ event.2 →
      ∃ member ∈ window, member.2 ≠ 0 ∧ member.2 + watch.windowMs.toNat ≤ event.2)
    (holds : Holds stands st window) :
    Holds stands (feedWindow watch.windowMs cleared (add event.1) st event.2).1
        (watch.kept window event.2 ++ [event]) ∧
      ((feedWindow watch.windowMs cleared (add event.1) st event.2).2.isSome = true ↔
        watch.Reaches (watch.kept window event.2) event) ∧
      ∀ raised ∈ (feedWindow watch.windowMs cleared (add event.1) st event.2).2,
        raised.count = UInt32.ofNat (watch.measure (watch.kind event.1)
          (watch.kept window event.2 ++ [event])) := by
  obtain ⟨start, held⟩ := enter_holds law positive inTime late clear holds
  exact ⟨⟨start, law.added counts held⟩, law.reached counts held,
    fun raised place => law.counted counts held place⟩

variable {look : σ → Nat → WindowState δ} {initial : σ}
  {feed : σ → CanFrame → Nat → σ × Option CanAlert} {events before : List Event}

/-- Every event finds its window clear. -/
def Watch.ClearRun (watch : Watch) (events : List Event) : Prop :=
  ∀ before event, before ++ [event] <+: events → watch.counts event.1 = true →
    watch.Clear before event

theorem Watch.ClearRun.of_prefix (clear : watch.ClearRun events) (front : before <+: events) :
    watch.ClearRun before :=
  fun prior earlier place => clear prior earlier (place.trans front)

theorem InTime.late (inTime : InTime (before ++ [event])) (watch : Watch) (key : Nat) :
    InTime (watch.window before key) ∧
      ∀ member ∈ watch.window before key, member.2 ≤ event.2 := by
  obtain ⟨inside, _, last⟩ := List.pairwise_append.mp inTime
  have kept := window_sublist watch before key
  exact ⟨inside.sublist kept, fun member place => last member (kept.subset place) event (by simp)⟩

/-- The state after a run stands for each key's window. -/
theorem run_holds (law : Stands watch cleared add stands)
    (feeds : Feeds watch cleared add look initial feed) (positive : watch.windowMs ≠ 0)
    (inTime : InTime events) (clear : watch.ClearRun events) (key : Nat) :
    Holds stands (look (stateAfter initial feed events) key) (watch.window events key) := by
  induction events using List.reverseRecOn with
  | nil =>
      rw [stateAfter, List.foldl_nil, feeds.initial]
      exact ⟨rfl, law.cleared⟩
  | append_singleton before event ih =>
      have held := ih (List.pairwise_append.mp inTime).1
        (clear.of_prefix (List.prefix_append before [event]))
      have step : stateAfter initial feed (before ++ [event]) =
          (feed (stateAfter initial feed before) event.1 event.2).1 := by
        rw [stateAfter, List.foldl_append]
        rfl
      rw [step]
      cases counts : watch.counts event.1 with
      | false =>
          rw [feeds.other counts, window_unseen (by simp [Watch.sees, counts])]
          exact held
      | true =>
          rw [feeds.look counts]
          by_cases same : watch.key event.1 = key
          · subst same
            obtain ⟨inside, late⟩ := inTime.late watch (watch.key event.1)
            rw [if_pos rfl, window_seen (by simp [Watch.sees, counts])]
            exact (feedWindow_holds law positive counts inside late
              (clear before event (List.prefix_refl _) counts) held).1
          · rw [if_neg same, window_unseen (by simp [Watch.sees, same])]
            exact held

theorem alert_of_clear (law : Stands watch cleared add stands)
    (feeds : Feeds watch cleared add look initial feed) (positive : watch.windowMs ≠ 0)
    (inTime : InTime (before ++ [event])) (clear : watch.ClearRun (before ++ [event])) :
    ((alertAfter initial feed before event).isSome = true ↔ watch.counts event.1 = true ∧
        watch.Reaches (watch.kept (watch.window before (watch.key event.1)) event.2) event) ∧
      ∀ raised ∈ alertAfter initial feed before event, raised.count = UInt32.ofNat
        (watch.measure (watch.kind event.1)
          (watch.window (before ++ [event]) (watch.key event.1))) := by
  cases counts : watch.counts event.1 with
  | false => simp [alertAfter, feeds.other counts]
  | true =>
      have held := run_holds law feeds positive (List.pairwise_append.mp inTime).1
        (clear.of_prefix (List.prefix_append before [event])) (watch.key event.1)
      obtain ⟨inside, late⟩ := inTime.late watch (watch.key event.1)
      obtain ⟨_, crossing, counted⟩ := feedWindow_holds law positive counts inside late
        (clear before event (List.prefix_refl _) counts) held
      rw [alertAfter, feeds.alert counts, window_seen (by simp [Watch.sees, counts])]
      exact ⟨by simpa using crossing, counted⟩

private theorem kept_last (window : List Event) (inTime : InTime window) :
    ∀ member ∈ watch.kept window event.2, event.2 < member.2 + watch.windowMs.toNat := by
  cases window with
  | nil =>
      intro member place
      cases place
  | cons first rest =>
      rw [Watch.kept]
      split
      next inside =>
        intro member place
        cases place with
        | head => exact inside
        | tail _ place =>
            have least := (List.pairwise_cons.mp inTime).1 member place
            omega
      next =>
        intro member place
        cases place

/-- A detector whose windows stay clear of time zero tumbles its windows. -/
theorem tumbling_of_clear (law : Stands watch cleared add stands)
    (feeds : Feeds watch cleared add look initial feed) (positive : watch.windowMs ≠ 0)
    (inTime : InTime (before ++ [event])) (clear : watch.ClearRun (before ++ [event])) :
    watch.TumblingAt (alertAfter initial feed) before event := by
  obtain ⟨crossing, counted⟩ := alert_of_clear law feeds positive inTime clear
  refine ⟨crossing, counted, fun alerted => ?_, fun alerted => ?_⟩
  · obtain ⟨counts, reaches⟩ := crossing.mp alerted
    rw [window_seen (by simp [Watch.sees, counts])]
    refine ⟨Nat.le_trans (Nat.le_max_right _ _) reaches.2, fun member place => ?_⟩
    rcases List.mem_append.mp place with before | now
    · exact kept_last _ (inTime.late watch (watch.key event.1)).1 member before
    · rw [List.mem_singleton.mp now]
      have length : watch.windowMs.toNat ≠ 0 := fun zero => positive (UInt32.toNat_inj.mp zero)
      omega
  · intro prior earlier after split sameKind sameKey front
    by_contra raised
    have priorAlerted := Option.isSome_iff_ne_none.mpr raised
    have place : prior ++ [earlier] <+: before ++ [event] := by
      rw [split]
      exact ⟨after ++ [event], by simp⟩
    have before' := (alert_of_clear law feeds positive (inTime.sublist place.sublist)
      (clear.of_prefix place)).1.mp priorAlerted
    obtain ⟨more, grown⟩ := front
    rw [window_seen (by simp [Watch.sees, before'.1, sameKey])] at grown
    have first := before'.2.2
    have second := (crossing.mp alerted).2.1
    have grows := watch.grows (watch.kind event.1)
      (watch.kept (watch.window prior (watch.key event.1)) earlier.2 ++ [earlier]) more
    rw [grown] at grows
    rw [Watch.least, sameKind, sameKey] at first
    rw [Watch.least] at second
    omega

end Runs

/-! The counters. -/

/-- The counter of this many events. -/
def Counter.Counts (threshold : UInt32) (counter : Counter) (number : Nat) : Prop :=
  counter.count = UInt32.ofNat number ∧
    (counter.alerted = true ↔ max 1 threshold.toNat ≤ number)

theorem Counter.counts_zero (threshold : UInt32) : Counter.zero.Counts threshold 0 :=
  ⟨rfl, by simp [Counter.zero]⟩

theorem Counter.add_counts {threshold : UInt32} {counter : Counter} {number : Nat}
    (report : UInt32 → CanAlert) (counts : counter.Counts threshold number) :
    (counter.add threshold report).1.Counts threshold (number + 1) ∧
      ((counter.add threshold report).2.isSome = true ↔
        number < max 1 threshold.toNat ∧ max 1 threshold.toNat ≤ number + 1) ∧
      ∀ raised, (counter.add threshold report).2 = some raised →
        raised = report (UInt32.ofNat (number + 1)) := by
  obtain ⟨count, latch⟩ := counts
  have next : counter.count + 1 = UInt32.ofNat (number + 1) := by
    rw [count, UInt32.ofNat_add]
    rfl
  rw [Counter.add]
  cases alerted : counter.alerted with
  | true =>
      have beyond := latch.mp alerted
      simp only [reduceCtorEq, and_false, if_false, Option.isSome_none, Bool.false_eq_true, false_iff]
      refine ⟨⟨next, ?_⟩, ?_, fun raised same => (by cases same)⟩
      · simp only [true_iff]
        omega
      · omega
  | false =>
      have below : number < max 1 threshold.toNat := by
        by_contra beyond
        have raised := latch.mpr (Nat.le_of_not_lt beyond)
        rw [alerted] at raised
        cases raised
      have bound : threshold.toNat < 2 ^ 32 := threshold.toNat_lt
      have small : (UInt32.ofNat (number + 1)).toNat = number + 1 :=
        UInt32.toNat_ofNat_of_lt' (by rw [UInt32.size]; omega)
      have reaches : threshold ≤ counter.count + 1 ↔ max 1 threshold.toNat ≤ number + 1 := by
        rw [next, UInt32.le_iff_toNat_le, small]
        omega
      by_cases reached : threshold ≤ counter.count + 1
      · simp only [reached, and_self, if_true]
        refine ⟨⟨next, ?_⟩, ?_, fun raised same => ?_⟩
        · exact ⟨fun _ => reaches.mp reached, fun _ => rfl⟩
        · exact ⟨fun _ => ⟨below, reaches.mp reached⟩, fun _ => rfl⟩
        · cases same
          rw [next]
      · simp only [reached, false_and, if_false]
        refine ⟨⟨next, ?_⟩, ?_, fun raised same => (by cases same)⟩
        · exact ⟨fun raised => (by cases raised), fun more => absurd (reaches.mpr more) reached⟩
        · exact ⟨fun raised => (by cases raised),
            fun more => absurd (reaches.mpr more.2) reached⟩

/-! What the detectors hold. -/

theorem counter_stands (windowMs threshold : UInt32) (counts : CanFrame → Bool)
    (key : CanFrame → Nat) (report : CanFrame → UInt32 → CanAlert)
    (reports : ∀ f count, (report f count).count = count) :
    Stands (countWatch windowMs threshold counts key) .zero
      (fun f => Counter.add threshold (report f))
      fun held window => held.Counts threshold window.length := by
  constructor
  · exact Counter.counts_zero threshold
  · intro held window event _ stands
    rw [List.length_append]
    exact (Counter.add_counts (report event.1) stands).1
  · intro held window event _ stands
    have reached := (Counter.add_counts (report event.1) stands).2.1
    rw [reached, Watch.Reaches, Watch.least]
    simp [countWatch]
  · intro held window event raised _ stands alerted
    rw [(Counter.add_counts (report event.1) stands).2.2 raised alerted, reports]
    simp [countWatch]

/-- How many of the window's frames are of this kind. -/
def kindCount (seeds : Bool) (window : List Event) : Nat :=
  (window.filter (requestsSeed ·.1 == seeds)).length

theorem kindCount_append (seeds : Bool) (window : List Event) (event : Event) :
    kindCount seeds (window ++ [event]) =
      kindCount seeds window + if requestsSeed event.1 = seeds then 1 else 0 := by
  rw [kindCount, List.filter_append, List.length_append, ← kindCount]
  by_cases same : requestsSeed event.1 = seeds <;> simp [same]

theorem secAccess_stands (cfg : UdsSecAccessConfig) :
    Stands (Detector.udsSecAccess cfg).watch .zero (SecAccess.add cfg) fun held window =>
      held.seeds.Counts cfg.seedThreshold (kindCount true window) ∧
        held.keys.Counts cfg.keyThreshold (kindCount false window) := by
  have measured : ∀ seeds window,
      (Detector.udsSecAccess cfg).watch.measure seeds window = kindCount seeds window :=
    fun _ _ => rfl
  constructor
  · exact ⟨Counter.counts_zero _, Counter.counts_zero _⟩
  · intro held window event _ stands
    rw [SecAccess.add]
    cases kind : requestsSeed event.1 with
    | true =>
        simp only [if_true, kindCount_append, kind, reduceCtorEq, if_false, Nat.add_zero]
        exact ⟨(Counter.add_counts _ stands.1).1, stands.2⟩
    | false =>
        simp only [Bool.false_eq_true, if_false, kindCount_append, kind, if_true, Nat.add_zero]
        exact ⟨stands.1, (Counter.add_counts _ stands.2).1⟩
  · intro held window event _ stands
    rw [SecAccess.add, Watch.Reaches, Watch.least, measured, measured, kindCount_append]
    cases kind : requestsSeed event.1 with
    | true =>
        simpa [Detector.watch, kind] using (Counter.add_counts _ stands.1).2.1
    | false =>
        simpa [Detector.watch, kind] using (Counter.add_counts _ stands.2).2.1
  · intro held window event raised _ stands alerted
    rw [SecAccess.add] at alerted
    rw [measured, kindCount_append]
    cases kind : requestsSeed event.1 with
    | true =>
        simp only [kind, if_true] at alerted
        rw [(Counter.add_counts _ stands.1).2.2 raised alerted]
        simp [Detector.watch, kind]
    | false =>
        simp only [kind, Bool.false_eq_true, if_false] at alerted
        rw [(Counter.add_counts _ stands.2).2.2 raised alerted]
        simp [Detector.watch, kind]

theorem svcScan_stands (cfg : UdsSvcScanConfig) :
    Stands (Detector.udsSvcScan cfg).watch .zero (SvcScan.add cfg) fun held window =>
      held.sids = windowSids window ∧
        (held.alerted = true ↔ max 1 cfg.svcThreshold.toNat ≤ held.sids.card) := by
  have grown : ∀ {held : SvcScan} {window : List Event} {event : Event},
      held.sids = windowSids window →
      insert event.1.data[0] held.sids = windowSids (window ++ [event]) := by
    intro held window event same
    rw [same, windowSids, windowSids, List.map_append, List.toFinset_append, Finset.insert_eq,
      Finset.union_comm]
    rfl
  have larger : ∀ (held : SvcScan) (event : Event),
      held.sids.card ≤ (insert event.1.data[0] held.sids).card ∧
        1 ≤ (insert event.1.data[0] held.sids).card :=
    fun held event => ⟨Finset.card_le_card (Finset.subset_insert _ _),
      Finset.card_pos.mpr (Finset.insert_nonempty _ _)⟩
  constructor
  · exact ⟨rfl, by simp [SvcScan.zero]⟩
  · rintro held window event _ ⟨same, latch⟩
    obtain ⟨more, some⟩ := larger held event
    rw [SvcScan.add]
    split
    next reached =>
      refine ⟨grown same, fun _ => ?_, fun _ => rfl⟩
      exact max_le some reached.1
    next missed =>
      refine ⟨grown same, fun raised => Nat.le_trans (latch.mp raised) more, fun reached => ?_⟩
      by_contra silent
      exact missed ⟨Nat.le_trans (Nat.le_max_right _ _) reached, by simpa using silent⟩
  · rintro held window event _ ⟨same, latch⟩
    obtain ⟨more, some⟩ := larger held event
    have reaches : (Detector.udsSvcScan cfg).watch.Reaches window event ↔
        held.sids.card < max 1 cfg.svcThreshold.toNat ∧
          max 1 cfg.svcThreshold.toNat ≤ (insert event.1.data[0] held.sids).card := by
      rw [grown same, same]
      rfl
    rw [reaches, SvcScan.add]
    split
    next reached =>
      refine ⟨fun _ => ⟨?_, max_le some reached.1⟩, fun _ => rfl⟩
      by_contra beyond
      have raised := latch.mpr (Nat.le_of_not_lt beyond)
      rw [reached.2] at raised
      cases raised
    next missed =>
      refine ⟨fun raised => (by cases raised), fun crossed => absurd ?_ missed⟩
      refine ⟨Nat.le_trans (Nat.le_max_right _ _) crossed.2, ?_⟩
      by_contra raised
      have beyond := latch.mp (by simpa using raised)
      omega
  · rintro held window event raised _ ⟨same, latch⟩ alerted
    rw [SvcScan.add] at alerted
    split at alerted
    next =>
      cases alerted
      rw [grown same]
      rfl
    next => cases alerted

/-! Where the detectors keep it. -/

theorem feedKey_feeds {δ : Type} (watch : Watch) (cleared : δ)
    (add : CanFrame → δ → δ × Option CanAlert)
    (feed : OrderedMap Nat (WindowState δ) → CanFrame → Nat →
      OrderedMap Nat (WindowState δ) × Option CanAlert)
    (other : ∀ {table f nowMs}, watch.counts f = false → feed table f nowMs = (table, none))
    (counted : ∀ {table f nowMs}, watch.counts f = true → feed table f nowMs =
      feedKey watch.windowMs cleared (add f) table (watch.key f) nowMs) :
    Feeds watch cleared add (fun table key => (table.find? key).getD ⟨0, cleared⟩) .empty feed := by
  constructor
  · intro key
    rfl
  · exact other
  · intro table f nowMs counts
    rw [counted counts]
    rfl
  · intro table f nowMs key counts
    rw [counted counts, feedKey, OrderedMap.find?_insert]
    split <;> rfl

/-- One window for all frames. -/
theorem feedWindow_feeds {δ : Type} (watch : Watch) (cleared : δ)
    (add : CanFrame → δ → δ × Option CanAlert)
    (feed : WindowState δ → CanFrame → Nat → WindowState δ × Option CanAlert)
    (always : ∀ f, watch.counts f = true) (single : ∀ f, watch.key f = 0)
    (counted : ∀ {state f nowMs}, feed state f nowMs =
      feedWindow watch.windowMs cleared (add f) state nowMs) :
    Feeds watch cleared add (fun state key => if key = 0 then state else ⟨0, cleared⟩)
      ⟨0, cleared⟩ feed := by
  constructor
  · intro key
    split <;> rfl
  · intro state f nowMs none
    rw [always f] at none
    cases none
  · intro state f nowMs _
    rw [counted, single, if_pos rfl]
  · intro state f nowMs key _
    rw [counted, single]
    by_cases zero : key = 0
    · subst zero
      simp
    · simp [zero, Ne.symm zero]

/-! All six. -/

section Detectors

variable {before : List Event} {event : Event}

theorem tumbles (detector : Detector) (positive : detector.watch.windowMs ≠ 0)
    (inTime : InTime (before ++ [event]))
    (clear : detector.watch.ClearRun (before ++ [event])) :
    detector.watch.TumblingAt detector.alert before event := by
  cases detector with
  | idFlood cfg =>
      refine tumbling_of_clear (counter_stands cfg.windowMs cfg.fpsThreshold (fun f => !f.err)
        (·.canId.toNat) (fun f => rateAlert .idFlood f cfg.windowMs) fun _ _ => rfl)
        (feedKey_feeds _ _ _ _ ?_ ?_) positive inTime clear
      · intro table f nowMs none
        exact if_pos (by simpa [Detector.watch, countWatch] using none)
      · intro table f nowMs counts
        exact if_neg (by simpa [Detector.watch, countWatch] using counts)
  | busFlood cfg =>
      exact tumbling_of_clear (counter_stands cfg.windowMs cfg.fpsThreshold (fun _ => true)
        (fun _ => 0) (fun _ => rateAlert .busFlood .blank cfg.windowMs) fun _ _ => rfl)
        (feedWindow_feeds _ _ _ _ (fun _ => rfl) (fun _ => rfl) rfl) positive inTime clear
  | errorBurst cfg =>
      exact tumbling_of_clear (counter_stands cfg.windowMs cfg.errThreshold (fun _ => true)
        (fun _ => 0) (fun _ count => { makeAlert .errorBurst .blank count with count })
        fun _ _ => rfl) (feedWindow_feeds _ _ _ _ (fun _ => rfl) (fun _ => rfl) rfl) positive
        inTime clear
  | diagFlood cfg =>
      refine tumbling_of_clear (counter_stands cfg.windowMs cfg.fpsThreshold (fun _ => true)
        (·.canId.toNat) (fun f => rateAlert .diagFlood f cfg.windowMs) fun _ _ => rfl)
        (feedKey_feeds _ _ _ _ ?_ ?_) positive inTime clear
      · intro table f nowMs none
        cases none
      · intro table f nowMs _
        rfl
  | udsSecAccess cfg =>
      refine tumbling_of_clear (secAccess_stands cfg) (feedKey_feeds _ _ _ _ ?_ ?_) positive inTime
        clear
      · intro table f nowMs none
        exact if_neg (by simpa [Detector.watch] using none)
      · intro table f nowMs counts
        exact if_pos counts
  | udsSvcScan cfg =>
      refine tumbling_of_clear (svcScan_stands cfg) (feedKey_feeds _ _ _ _ ?_ ?_) positive inTime
        clear
      · intro table f nowMs none
        exact if_neg (by simpa [Detector.watch] using none)
      · intro table f nowMs counts
        exact if_pos (by simpa [Detector.watch] using counts)

/-- In a run whose windows stay clear of time zero, every detector tumbles its windows. -/
theorem windows_tumble (detector : Detector) {events : List Event}
    (positive : detector.watch.windowMs ≠ 0) (inTime : InTime events)
    (clear : detector.watch.ClearRun events) :
    ∀ before event, before ++ [event] <+: events →
      detector.watch.TumblingAt detector.alert before event :=
  fun _ _ place => tumbles detector positive (inTime.sublist place.sublist) (clear.of_prefix place)

private theorem clear_sample : (Detector.idFlood {}).watch.ClearRun
    [(.blank, 0), (.blank, 10)] := by
  intro before event place _ first head zero beyond
  have second : event.2 ∈ [0, 10] := by
    have member : event ∈ [(CanFrame.blank, 0), (CanFrame.blank, 10)] :=
      place.subset (List.mem_append_right before (List.mem_singleton.mpr rfl))
    rcases List.mem_pair.mp member with rfl | rfl <;> decide
  have length : (Detector.idFlood {}).watch.windowMs.toNat = 1000 := rfl
  rw [length] at beyond
  rcases List.mem_pair.mp second with time | time <;> omega

theorem windows_tumble_sample : (Detector.idFlood {}).watch.TumblingAt (Detector.idFlood {}).alert
    [(.blank, 0)] (.blank, 10) :=
  windows_tumble (.idFlood {}) (by decide) (by decide) clear_sample _ _ (List.prefix_refl _)

/-- Two frames five seconds apart, the first at time zero, are reported as a flood. -/
theorem zero_start_joins : ¬ ∀ (detector : Detector) (events : List Event),
    detector.watch.windowMs ≠ 0 → InTime events → ∀ before event, before ++ [event] <+: events →
      detector.watch.TumblingAt detector.alert before event := by
  intro all
  have law := all (.idFlood ⟨1000, 2⟩) [(.blank, 0), (.blank, 5000)] (by decide) (by decide)
    [(.blank, 0)] (.blank, 5000) (List.prefix_refl _)
  have short := (law.enough (by decide)).1
  exact absurd short (by decide)

end Detectors

end Idsm.CanProbe
