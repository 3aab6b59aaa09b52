import Idsm.Foundation.Outbox
import Idsm.Managerd.Reporting

/-! The upload of the reject events: in the daemon's main loop, with the callbacks that queue them,
and in the Android manager's pump. -/

set_option autoImplicit false

namespace Idsm.Managerd

open Idsm.Foundation

/-- A callback queues an event, the loop takes the first one, its publication ends. -/
inductive EventUploadEvent where
  | pushEvent (nowMs : Int) (item : EventItem)
  | takeFront (connected : Bool)
  | publish (sent : Bool)

/-- `push_event`. An envelope that cannot be built leaves the callback before anything is
queued. -/
def queueEvent (library : EnvelopeLibrary) (manufacturer : String) (nowMs : Int) (item : EventItem)
    (pendingEvents : Outbox String) : Outbox String :=
  match buildEventUpEnvelope library nowMs manufacturer [item] with
  | .error _ => pendingEvents
  | .ok envelope => pendingEvents.put envelope

theorem queueEvent_waiting (library : EnvelopeLibrary) (manufacturer : String) (nowMs : Int)
    (item : EventItem) (pendingEvents : Outbox String) :
    (queueEvent library manufacturer nowMs item pendingEvents).waiting =
      (pushEvent library nowMs manufacturer pendingEvents.waiting item).toOption.getD
        pendingEvents.waiting := by
  unfold queueEvent pushEvent
  cases buildEventUpEnvelope library nowMs manufacturer [item] with
  | error thrown => rfl
  | ok envelope => rfl

/-- An empty text counts as no event. -/
def takeFront (pendingEvents : Outbox String) : Outbox String :=
  let taken := pendingEvents.take
  if taken.inHand = some "" then taken.drop else taken

def eventUploadStep (library : EnvelopeLibrary) (manufacturer : String)
    (pendingEvents : Outbox String) : EventUploadEvent → Option (Outbox String)
  | .pushEvent nowMs item => some (queueEvent library manufacturer nowMs item pendingEvents)
  | .takeFront connected =>
      match pendingEvents.inHand with
      | none => some (if connected then takeFront pendingEvents else pendingEvents)
      | some _ => none
  | .publish sent =>
      match pendingEvents.inHand with
      | none => none
      | some _ => some (if sent then pendingEvents.confirm else pendingEvents.putBack)

end Idsm.Managerd

namespace Idsm.Android

open Idsm.Foundation

/-- A listener queues an event's type and detail, the pump polls, a publication ends. -/
inductive PumpEvent where
  | enqueueEvent (type detail : String)
  | poll
  | publishQos1 (delivered : Bool)
  deriving DecidableEq, Repr

/-- `runCatching` swallows the exception of a publication. -/
def pumpStep (pendingEvents : Outbox (String × String)) :
    PumpEvent → Option (Outbox (String × String))
  | .enqueueEvent type detail => some (pendingEvents.put (type, detail))
  | .poll =>
      match pendingEvents.inHand with
      | none => some pendingEvents.take
      | some _ => none
  | .publishQos1 delivered =>
      match pendingEvents.inHand with
      | none => none
      | some _ => some (if delivered then pendingEvents.confirm else pendingEvents.drop)

end Idsm.Android
