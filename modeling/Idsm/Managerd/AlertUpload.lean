import Idsm.Managerd.AlertQueue
import Idsm.Managerd.VsocEnvelope

/-! The upload of the alert queues: the loop over the channels, the client's out-queue in
memory, and the broker. Appends come from the channels' socket threads at any moment. -/

set_option autoImplicit false

namespace Idsm.Managerd

open Idsm.Foundation

/-- A message published with QoS 1. -/
structure Message where
  topic : String
  payload : String
  deriving DecidableEq, Repr

/-- Where the loop is in its pass over one channel. -/
inductive UploadPosition (κ : Type) where
  | idle
  | taken (channel : κ) (batch : List (List UInt8))
  | dropping (channel : κ) (batch : List (List UInt8))
  | published (channel : κ) (batch : List (List UInt8)) (message : Message)
  deriving DecidableEq, Repr

structure Upload (κ : Type) where
  queues : κ → AlertQueue
  position : UploadPosition κ
  outQueue : List Message
  broker : List Message

inductive UploadEvent (κ : Type) where
  | «open» (channel : κ) (fault : Fault)
  | append (channel : κ) (rawLine : List UInt8) (fault : Fault)
  | take (channel : κ) (fault : Fault)
  | publish (ruleVersion : String) (nowMs : Int) (accepted : Bool)
  | markUploaded (env : MarkStep → Fault)
  | deliver (message : Message) (acknowledged : Bool)
  | disconnect
  | crash

/-- What the command line gives: the vehicle, and each channel's node and ECU. -/
structure UploadArgs (κ : Type) where
  manufacturer : String
  deviceId : String
  nodeType : κ → String
  ecuCode : κ → String

variable {κ : Type}

def UploadArgs.source (args : UploadArgs κ) (channel : κ) (ruleVersion : String) : AlertSource :=
  ⟨args.manufacturer, args.deviceId, args.nodeType channel, args.ecuCode channel, ruleVersion⟩

def UploadArgs.topic (args : UploadArgs κ) (channel : κ) : String :=
  "oc/devices/" ++ args.deviceId ++ "/sys/idps/" ++ nodeTypeToTopicSeg (args.nodeType channel) ++
    "/log"

def batchSize : Nat := 64

namespace Upload

def init : Upload κ := ⟨fun _ => .empty, .idle, [], []⟩

/-- A new process: the files and what the broker has remain. -/
def restart (upload : Upload κ) : Upload κ :=
  { upload with queues := fun channel => (upload.queues channel).restart
                position := .idle, outQueue := [] }

def setQueue [DecidableEq κ] (upload : Upload κ) (channel : κ) (queue : AlertQueue) : Upload κ :=
  { upload with queues := fun other => if other = channel then queue else upload.queues other }

/-- A call on one channel's queue; a crash in it ends the process. -/
def call [DecidableEq κ] {α : Type} (upload : Upload κ) (channel : κ) (program : QueueProgram α)
    (next : α → Upload κ → Upload κ) : Upload κ :=
  match program.run (upload.queues channel) with
  | .returned value queue => next value (upload.setQueue channel queue)
  | .threw error _ => nomatch error
  | .crashed queue => (upload.setQueue channel queue).restart

/-- An empty batch goes on to the next channel. -/
def afterTake (channel : κ) (batch : List (List UInt8)) (upload : Upload κ) : Upload κ :=
  if batch = [] then upload else { upload with position := .taken channel batch }

/-- The envelope of a batch: dropped when empty, else handed to the client. -/
def publish (args : UploadArgs κ) (library : EnvelopeLibrary) (channel : κ)
    (batch : List (List UInt8)) (ruleVersion : String) (nowMs : Int) (accepted : Bool)
    (upload : Upload κ) : Upload κ :=
  let env := buildAlertEnvelope library (args.source channel ruleVersion) nowMs batch
  if env = "" then { upload with position := .dropping channel batch }
  else if accepted then
    let message : Message := ⟨args.topic channel, env⟩
    { upload with position := .published channel batch message
                  outQueue := upload.outQueue ++ [message] }
  else { upload with position := .idle }

/-- The network thread sends a message of the out-queue; it leaves the out-queue with the
broker's acknowledgement. -/
def deliver (message : Message) (acknowledged : Bool) (upload : Upload κ) : Upload κ :=
  { upload with
    broker := upload.broker ++ [message]
    outQueue := if acknowledged then upload.outQueue.erase message else upload.outQueue }

end Upload

/-- The channel whose batch the loop is about to mark. -/
def UploadPosition.marking : UploadPosition κ → Option κ
  | .dropping channel _ => some channel
  | .published channel _ _ => some channel
  | _ => none

def uploadStep [DecidableEq κ] (args : UploadArgs κ) (library : EnvelopeLibrary)
    (upload : Upload κ) : UploadEvent κ → Option (Upload κ)
  | .open channel fault =>
      match upload.position with
      | .idle =>
          if (upload.queues channel).isOpen then none
          else some (upload.call channel (AlertQueue.open fault) fun _ later => later)
      | _ => none
  | .append channel rawLine fault =>
      some (upload.call channel (AlertQueue.append rawLine fault) fun _ later => later)
  | .take channel fault =>
      match upload.position with
      | .idle =>
          some (upload.call channel (AlertQueue.pending batchSize fault) (Upload.afterTake channel))
      | _ => none
  | .publish ruleVersion nowMs accepted =>
      match upload.position with
      | .taken channel batch =>
          some (upload.publish args library channel batch ruleVersion nowMs accepted)
      | _ => none
  | .markUploaded env =>
      upload.position.marking.map fun channel =>
        upload.call channel (AlertQueue.markUploaded env) fun _ later =>
          { later with position := .idle }
  | .deliver message acknowledged =>
      if message ∈ upload.outQueue then some (upload.deliver message acknowledged) else none
  | .disconnect => some upload
  | .crash => some upload.restart

end Idsm.Managerd
