import Idsm.Foundation.Execution
import Idsm.Managerd.AlertUploadProperties
import Idsm.Managerd.EventUpload

/-! No reject event is lost in the daemon, and none in the Android manager whose publication does
not fail. -/

set_option autoImplicit false

namespace Idsm.Android

open Idsm.Foundation
open Idsm.Managerd (EnvelopeLibrary EventItem EventUploadEvent eventUploadStep queueEvent takeFront
  buildEventUpEnvelope dump_envelope_ne envelopeLibrarySample)

section Daemon

variable {library : EnvelopeLibrary} {manufacturer : String} {nowMs : Int}
  {pendingEvents later : Outbox String}

theorem envelope_filled {items : List EventItem} {envelope : String}
    (built : buildEventUpEnvelope library nowMs manufacturer items = .ok envelope) :
    envelope ≠ "" := by
  unfold buildEventUpEnvelope at built
  cases content : items.mapM (Managerd.eventContent nowMs) with
  | error thrown =>
      rw [content] at built
      cases built
  | ok content' =>
      rw [content] at built
      rw [← Except.ok.inj built]
      exact dump_envelope_ne

/-- Every event is there, and none has an empty text. -/
structure Filled (pendingEvents : Outbox String) : Prop where
  conserved : pendingEvents.Conserved
  nonempty : ∀ text ∈ pendingEvents.queued, text ≠ ""

theorem Filled.queueEvent (filled : Filled pendingEvents) (item : EventItem) :
    Filled (queueEvent library manufacturer nowMs item pendingEvents) := by
  unfold Managerd.queueEvent
  cases built : buildEventUpEnvelope library nowMs manufacturer [item] with
  | error thrown => exact filled
  | ok envelope =>
      refine ⟨filled.conserved.put envelope, fun text member => ?_⟩
      rcases List.mem_append.mp member with earlier | newest
      · exact filled.nonempty text earlier
      · rw [List.mem_singleton.mp newest]
        exact envelope_filled built

/-- What is taken has a text, so it is not forgotten. -/
theorem Filled.takeFront (filled : Filled pendingEvents) (free : pendingEvents.inHand = none) :
    Filled (takeFront pendingEvents) := by
  have conserved := filled.conserved.take free
  have named : ¬ pendingEvents.take.inHand = some "" := by
    intro empty
    refine filled.nonempty "" ?_ rfl
    change "" ∈ pendingEvents.take.queued
    rw [conserved, empty]
    exact List.mem_append_right _ List.mem_cons_self
  unfold Managerd.takeFront
  rw [if_neg named]
  exact ⟨conserved, filled.nonempty⟩

theorem Filled.step {event : EventUploadEvent} (filled : Filled pendingEvents)
    (here : eventUploadStep library manufacturer pendingEvents event = some later) :
    Filled later := by
  cases event with
  | pushEvent nowMs item =>
      obtain rfl := Option.some.inj here
      exact filled.queueEvent item
  | takeFront connected =>
      cases hand : pendingEvents.inHand with
      | some text =>
          rw [eventUploadStep, hand] at here
          cases here
      | none =>
          rw [eventUploadStep, hand] at here
          obtain rfl := Option.some.inj here
          cases connected with
          | true => exact filled.takeFront hand
          | false => exact filled
  | publish sent =>
      cases hand : pendingEvents.inHand with
      | none =>
          rw [eventUploadStep, hand] at here
          cases here
      | some text =>
          rw [eventUploadStep, hand] at here
          obtain rfl := Option.some.inj here
          cases sent with
          | true => exact ⟨filled.conserved.confirm, filled.nonempty⟩
          | false => exact ⟨filled.conserved.putBack, filled.nonempty⟩

end Daemon

section Pump

variable {pendingEvents later : Outbox (String × String)} {event : PumpEvent}

/-- One step keeps every event, unless its publication fails. -/
theorem pumpStep_conserved_iff (conserved : pendingEvents.Conserved)
    (here : pumpStep pendingEvents event = some later) :
    later.Conserved ↔ event ≠ .publishQos1 false := by
  cases event with
  | enqueueEvent type detail =>
      obtain rfl := Option.some.inj here
      exact iff_of_true (conserved.put _) nofun
  | poll =>
      cases hand : pendingEvents.inHand with
      | some held =>
          rw [pumpStep, hand] at here
          cases here
      | none =>
          rw [pumpStep, hand] at here
          obtain rfl := Option.some.inj here
          exact iff_of_true (conserved.take hand) nofun
  | publishQos1 delivered =>
      cases hand : pendingEvents.inHand with
      | none =>
          rw [pumpStep, hand] at here
          cases here
      | some held =>
          rw [pumpStep, hand] at here
          obtain rfl := Option.some.inj here
          cases delivered with
          | true => exact iff_of_true conserved.confirm nofun
          | false => exact iff_of_false (conserved.not_drop hand) fun other => other rfl

theorem pump_conserved_iff {start last : Outbox (String × String)}
    {transitions : List (Transition (Outbox (String × String)) PumpEvent)}
    (run : Execution pumpStep start transitions last) (conserved : start.Conserved) :
    (∀ transition ∈ transitions, transition.after.Conserved) ↔
      ∀ transition ∈ transitions, transition.event ≠ .publishQos1 false := by
  induction run with
  | stop state => exact iff_of_true (List.forall_mem_nil _) (List.forall_mem_nil _)
  | @next state middle ended event steps here later ih =>
      have first := pumpStep_conserved_iff conserved here
      rw [List.forall_mem_cons, List.forall_mem_cons]
      constructor
      · rintro ⟨still, others⟩
        exact ⟨first.mp still, (ih still).mp others⟩
      · rintro ⟨published, others⟩
        have still := first.mpr published
        exact ⟨still, (ih still).mpr others⟩

end Pump

/-- In every run of the daemon each reject event was published or still waits, in the order of
the queue; in the Android manager exactly when no publication of one fails. -/
theorem reject_events_conserved_iff {library : EnvelopeLibrary} {manufacturer : String}
    {uploads : List (Transition (Outbox String) EventUploadEvent)} {uploaded : Outbox String}
    (daemon : Execution (eventUploadStep library manufacturer) .empty uploads uploaded)
    {transitions : List (Transition (Outbox (String × String)) PumpEvent)}
    {last : Outbox (String × String)} (pump : Execution pumpStep .empty transitions last) :
    (∀ transition ∈ uploads, transition.after.Conserved) ∧
      ((∀ transition ∈ transitions, transition.after.Conserved) ↔
        ∀ transition ∈ transitions, transition.event ≠ .publishQos1 false) := by
  refine ⟨?_, pump_conserved_iff pump Outbox.conserved_empty⟩
  have filled : Filled (.empty : Outbox String) :=
    ⟨Outbox.conserved_empty, fun text member => nomatch member⟩
  have run : ∀ {start : Outbox String}, Filled start →
      Execution (eventUploadStep library manufacturer) start uploads uploaded →
        ∀ transition ∈ uploads, transition.after.Conserved := by
    clear * -
    intro start filled run
    induction run with
    | stop state => exact List.forall_mem_nil _
    | @next state middle ended event steps here later ih =>
        have still := filled.step here
        exact List.forall_mem_cons.mpr ⟨still.conserved, ih still⟩
  exact run filled daemon

section Samples

def daemonEvents : List EventUploadEvent :=
  [.pushEvent 1 ⟨"RULE_REJECT", [], "MEDIUM", 0⟩, .takeFront true, .publish false, .takeFront true,
    .publish true]

def daemonTrace : List (Transition (Outbox String) EventUploadEvent) × Outbox String :=
  (execute (eventUploadStep envelopeLibrarySample "") .empty daemonEvents).get (by decide)

def pumpEvents (delivered : Bool) : List PumpEvent :=
  [.enqueueEvent "RULE_REJECT" "expired", .poll, .publishQos1 delivered]

def pumpTrace (delivered : Bool) :
    Option (List (Transition (Outbox (String × String)) PumpEvent) × Outbox (String × String)) :=
  execute pumpStep .empty (pumpEvents delivered)

theorem reject_events_conserved_sample :
    (∀ transition ∈ daemonTrace.1, transition.after.Conserved) ∧
      ((∀ transition ∈ ((pumpTrace true).get (by decide)).1, transition.after.Conserved) ↔
        ∀ transition ∈ ((pumpTrace true).get (by decide)).1,
          transition.event ≠ .publishQos1 false) := by
  have uploaded : execute (eventUploadStep envelopeLibrarySample "") .empty daemonEvents =
      some daemonTrace := (Option.some_get _).symm
  have pumped : pumpTrace true = some ((pumpTrace true).get (by decide)) :=
    (Option.some_get _).symm
  exact reject_events_conserved_iff (execution_of_execute uploaded) (execution_of_execute pumped)

/-- The publication fails and the event is gone. -/
theorem failed_publication_loses_event :
    ¬ ∀ (transitions : List (Transition (Outbox (String × String)) PumpEvent))
        (last : Outbox (String × String)), Execution pumpStep .empty transitions last →
          ∀ transition ∈ transitions, transition.after.Conserved := by
  intro conserved
  have pumped : pumpTrace false = some ((pumpTrace false).get (by decide)) :=
    (Option.some_get _).symm
  have every := conserved _ _ (execution_of_execute pumped)
  exact absurd every (by decide)

end Samples

end Idsm.Android
