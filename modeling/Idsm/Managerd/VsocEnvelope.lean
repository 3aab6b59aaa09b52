import Idsm.Json.Dump
import Idsm.Json.Parse

/-! The envelopes the daemon sends: alert lines of the probes read into records, and
the upward event and alert messages. -/

set_option autoImplicit false

namespace Idsm.Managerd

open Idsm.Foundation
open Idsm.Json (Value Binary64 dump)

/-- The functions of other libraries behind the envelopes. -/
structure EnvelopeLibrary where
  sha256 : List UInt8 → List UInt8
  strtod : List Char → Option Binary64
  floatText : Binary64 → String

/-- Enough of the libraries for documents without fractions. -/
def envelopeLibrarySample : EnvelopeLibrary := ⟨fun _ => [], fun _ => none, fun _ => ""⟩

def sha256Hex (library : EnvelopeLibrary) (input : List UInt8) : String :=
  String.ofList ((library.sha256 input).flatMap fun byte =>
    [hexDigit (byte.toNat / 16), hexDigit byte.toNat])

/-- A text of bytes; the parser refuses bytes that are no UTF-8. -/
def decodeUtf8 (bytes : List UInt8) : Option String := String.fromUTF8? bytes.toByteArray

theorem decodeUtf8_utf8 (text : String) : decodeUtf8 (utf8 text) = some text := by
  have bytes : (utf8 text).toByteArray = text.toByteArray := by
    calc (utf8 text).toByteArray = (String.ofList text.toList).toByteArray :=
          String.toByteArray_ofList.symm
      _ = text.toByteArray := by rw [String.ofList_toList]
  rw [decodeUtf8, bytes, String.fromUTF8?, dif_pos text.isValidUTF8]
  rfl

def parseBytes (library : EnvelopeLibrary) (bytes : List UInt8) : Option Value := do
  let text ← decodeUtf8 bytes
  Json.parse library.strtod text

structure ParsedAlert where
  eventId : UInt32
  severity : String
  timestampMs : Int
  idsMessageHex : String
  deriving DecidableEq, Repr

/-- Why a line is no alert: no JSON, or a field of the wrong kind. -/
inductive AlertError where
  | json
  | field (error : Json.Error)
  deriving DecidableEq, Repr

/-- `get<uint32_t>()`: a wider number is cut. -/
def getUInt32 (value : Value) : Except Json.Error UInt32 :=
  value.getLongLong.map UInt32.ofInt

def readAlert (library : EnvelopeLibrary) (line : List UInt8) (j : Value) :
    Except Json.Error ParsedAlert := do
  let id ← j.at "event_id"
  let eventId ← getUInt32 id
  let severity ← j.valueOr "severity" "MEDIUM" Value.getString
  let s ← j.valueOr "timestamp_s" 0 Value.getLongLong
  let ns ← j.valueOr "timestamp_ns" 0 Value.getLongLong
  let hex ← j.valueOr "ids_message" "" Value.getString
  return {
    eventId
    severity
    timestampMs := (s * 1000 + ns.tdiv 1000000).bmod (2 ^ 64)
    idsMessageHex := if hex = "" then sha256Hex library line else hex }

def parseAlertLine (library : EnvelopeLibrary) (line : List UInt8) :
    Except AlertError ParsedAlert :=
  match parseBytes library line with
  | none => .error .json
  | some j => (readAlert library line j).mapError .field

section Names

/-- `%04X` of a 32-bit number. -/
def hexWord4 (value : UInt32) : String :=
  String.ofList ((Nat.toDigits 16 value.toNat).map Char.toUpper |>.leftpad 4 '0')

def hostEventTypeName (eventId : UInt32) : String :=
  match eventId with
  | 0x8021 => "DT_UNKNOWN_EXEC"
  | 0x8022 => "DT_PRIV_ESC"
  | 0x8023 => "DT_FORK_FLOOD"
  | 0x8024 => "DT_REVERSE_SHELL"
  | 0x8025 => "DT_FILE_MOD"
  | 0x8026 => "DT_NEW_SETUID"
  | 0x8027 => "DT_KMOD"
  | 0x8028 => "DT_ZOMBIE_STORM"
  | 0x8029 => "DT_RES_EXHAUST"
  | 0x802A => "DT_ROOT_SHELL"
  | _ => "EVT_" ++ hexWord4 eventId

def makeEventId (library : EnvelopeLibrary) (deviceId nodeType idsMessageHex : String) : String :=
  deviceId ++ "-" ++ nodeType ++ "-" ++
    String.ofList ((sha256Hex library (utf8 idsMessageHex)).toList.take 32)

def nodeTypeToTopicSeg (nodeType : String) : String :=
  if nodeType = "HIDPS" then "host"
  else if nodeType = "NIDPS" then "eth"
  else if nodeType = "CIDS" then "can"
  else "unknown"

end Names

section Envelopes

structure EventItem where
  eventType : String
  detail : List UInt8
  severity : String
  timestampMs : Int
  deriving DecidableEq, Repr

/-- A `long long` in a document. -/
def longLongValue (number : Int) : Value := .integer (Int64.ofInt number)

/-- The serializer throws on bytes that are no UTF-8. -/
def textValue (bytes : List UInt8) : Except Json.Error Value :=
  match decodeUtf8 bytes with
  | some text => .ok (.string text)
  | none => .error (.typeError 316)

def eventContent (nowMs : Int) (item : EventItem) : Except Json.Error Value := do
  let detail ← textValue item.detail
  return .object [("eventType", .string item.eventType), ("severity", .string item.severity),
    ("timestamp", longLongValue (if 0 < item.timestampMs then item.timestampMs else nowMs)),
    ("detail", detail)]

def envelopeDocument (msgType : String) (nowMs : Int) (manufacturer : String)
    (content : List Value) : Value :=
  .object [("msg_type", .string msgType), ("protocol_version", .string "1.0"),
    ("timestamp", longLongValue nowMs), ("manufacturer", .string manufacturer),
    ("content", .array content)]

def buildEventUpEnvelope (library : EnvelopeLibrary) (nowMs : Int) (manufacturer : String)
    (items : List EventItem) : Except Json.Error String := do
  let content ← items.mapM (eventContent nowMs)
  return dump library.floatText (envelopeDocument "event_up" nowMs manufacturer content) none

/-- What identifies the daemon's alerts. -/
structure AlertSource where
  manufacturer : String
  deviceId : String
  nodeType : String
  ecuCode : String
  ruleVersion : String

def alertContent (library : EnvelopeLibrary) (source : AlertSource) (line : List UInt8) :
    Option Value :=
  match parseAlertLine library line with
  | .error _ => none
  | .ok a =>
      let raw := (parseBytes library line).getD (.object [])
      let eventType :=
        if source.nodeType = "HIDPS" then hostEventTypeName a.eventId
        else "EVT_" ++ hexWord4 a.eventId
      some (.object [("eventId", .string (makeEventId library source.deviceId source.nodeType
          a.idsMessageHex)), ("eventType", .string eventType), ("severity", .string a.severity),
        ("timestamp", longLongValue a.timestampMs), ("ecuCode", .string source.ecuCode),
        ("nodeType", .string source.nodeType), ("ruleVersion", .string source.ruleVersion),
        ("replay", .boolean false), ("raw", raw)])

/-- Empty when no line is an alert; the lines that are none are left out. -/
def buildAlertEnvelope (library : EnvelopeLibrary) (source : AlertSource) (nowMs : Int)
    (rawLines : List (List UInt8)) : String :=
  let content := rawLines.filterMap (alertContent library source)
  if content = [] then ""
  else
    dump library.floatText (envelopeDocument ("alert_" ++ nodeTypeToTopicSeg source.nodeType)
      nowMs source.manufacturer content) none

end Envelopes

end Idsm.Managerd
