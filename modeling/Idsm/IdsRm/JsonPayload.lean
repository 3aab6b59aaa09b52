import Idsm.Managerd.VsocEnvelope
import Idsm.Protocol.Decoder

/-! The record of a qualified event that the reporting manager hands to its sinks. Two
fixed-size buffers take the parts before and behind the context bytes. -/

set_option autoImplicit false

namespace Idsm.IdsRm

open Idsm.Protocol

/-- The manager's own copy of an event. -/
structure OwnedQSEv where
  idsmInstanceId : UInt16
  externalEventId : UInt16
  sensorInstanceId : UInt8
  severity : EventSeverity
  count : UInt16
  hasTimestamp : Bool
  timestamp : TimestampData
  contextDataVersion : UInt16
  contextData : List UInt8
  deriving DecidableEq, Repr

/-- The size of a longer context wraps. -/
def OwnedQSEv.toC (qsev : OwnedQSEv) : QualifiedSecurityEvent where
  idsmInstanceId := qsev.idsmInstanceId
  externalEventId := qsev.externalEventId
  sensorInstanceId := qsev.sensorInstanceId
  severity := qsev.severity
  count := qsev.count
  hasTimestamp := qsev.hasTimestamp
  timestamp := qsev.timestamp
  contextDataVersion := qsev.contextDataVersion
  contextData :=
    if qsev.contextData = [] then none
    else some (qsev.contextData.take (UInt16.ofNat qsev.contextData.length).toNat)
  contextDataSize := UInt16.ofNat qsev.contextData.length
  readable := by
    intro bytes present
    split at present
    · cases present
    · cases present
      rw [List.length_take, Nat.min_eq_left]
      rw [UInt16.toNat_ofNat']
      exact Nat.mod_le _ _

def upperHexDigit (value : Nat) : Char := "0123456789ABCDEF".toList.getD (value % 16) '0'

def toHex (data : List UInt8) : String :=
  String.ofList (data.flatMap fun byte => [upperHexDigit (byte.toNat / 16), upperHexDigit byte.toNat])

def severityToString : EventSeverity → String
  | .low => "LOW"
  | .medium => "MEDIUM"
  | .high => "HIGH"
  | .critical => "CRITICAL"

/-- The message the serializer returned, out of the zeroed vector sized for it. -/
def serialized (qsev : OwnedQSEv) : List UInt8 :=
  let message := buildWireMessage qsev.toC
  (message.written.storedIn (List.replicate message.capacity.toNat 0)).take
    message.written.offset.toNat

/-- `snprintf` into a buffer of this size, its last byte taken by the terminator. -/
def snprintf (size : Nat) (text : String) : String := String.ofList (text.toList.take (size - 1))

/-- `%u` of a value cast to `unsigned`. -/
def unsigned (value : Nat) : String := toString (value % 2 ^ 32)

def headerText (qsev : OwnedQSEv) (msgHex : String) : String :=
  "\x7b\"ids_message\":\"" ++ msgHex ++ "\",\"protocol_version\":" ++
    unsigned protocolVersion.toNat ++
    ",\"has_context_data\":" ++ (if qsev.contextData = [] then "false" else "true") ++
    ",\"has_timestamp\":" ++ (if qsev.hasTimestamp then "true" else "false") ++
    ",\"idsm_instance_id\":" ++ unsigned qsev.idsmInstanceId.toNat ++
    ",\"sensor_instance_id\":" ++ unsigned qsev.sensorInstanceId.toNat ++
    ",\"event_id\":" ++ unsigned qsev.externalEventId.toNat ++
    ",\"count\":" ++ unsigned qsev.count.toNat ++
    ",\"severity\":\"" ++ severityToString qsev.severity ++
    "\",\"timestamp_s\":" ++ unsigned qsev.timestamp.seconds.toNat ++
    ",\"timestamp_ns\":" ++ unsigned qsev.timestamp.nanoseconds.toNat ++
    ",\"context_data_version\":" ++ unsigned qsev.contextDataVersion.toNat ++ ",\"payload\":\""

def trailerText (qsev : OwnedQSEv) : String :=
  "\",\"payload_len\":" ++ unsigned qsev.contextData.length ++ "\x7d"

def buildJsonPayload (qsev : OwnedQSEv) : String :=
  let header := snprintf 512 (headerText qsev (toHex (serialized qsev)))
  let trailer := snprintf 64 (trailerText qsev)
  header ++ toHex qsev.contextData ++ trailer

end Idsm.IdsRm
