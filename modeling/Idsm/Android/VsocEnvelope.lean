import Idsm.Android.OrgValue
import Idsm.Managerd.VsocEnvelope

/-! The alert envelopes of the Android side: one line of a probe read through org.json,
and the records of a batch. -/

set_option autoImplicit false

namespace Idsm.Android

open Idsm.Foundation
open Idsm.Managerd (AlertSource nodeTypeToTopicSeg)

/-- What the envelopes use of the platform. -/
structure EnvelopePlatform where
  java : Java
  ofText : String → Except String (List (String × OrgValue))
  sha256 : List UInt8 → List UInt8

abbrev EnvelopePlatform.json (platform : EnvelopePlatform) : OrgJson :=
  documented platform.java platform.ofText

namespace VsocEnvelope

structure ParsedAlert where
  eventId : Int
  severity : String
  timestampMs : Int
  idsMessageHex : String
  deriving DecidableEq

def hostEventNames : List (Int × String) :=
  [(0x8021, "DT_UNKNOWN_EXEC"), (0x8022, "DT_PRIV_ESC"), (0x8023, "DT_FORK_FLOOD"),
    (0x8024, "DT_REVERSE_SHELL"), (0x8025, "DT_FILE_MOD"), (0x8026, "DT_NEW_SETUID"),
    (0x8027, "DT_KMOD"), (0x8028, "DT_ZOMBIE_STORM"), (0x8029, "DT_RES_EXHAUST"),
    (0x802A, "DT_ROOT_SHELL")]

/-- `%04X` of a `Long`, whose sign is its highest bit. -/
def hexLong4 (value : Int) : String :=
  String.ofList ((Nat.toDigits 16 (value % 2 ^ 64).toNat).map Char.toUpper |>.leftpad 4 '0')

def eventTypeName (nodeType : String) (eventId : Int) : String :=
  if nodeType = "HIDPS" then
    match hostEventNames.lookup eventId with
    | some name => name
    | none => "EVT_" ++ hexLong4 eventId
  else "EVT_" ++ hexLong4 eventId

section Envelopes

variable (platform : EnvelopePlatform)

def sha256Hex (inBytes : String) : String :=
  String.ofList ((platform.sha256 (utf8 inBytes)).flatMap fun byte =>
    [hexDigit (byte.toNat / 16), hexDigit byte.toNat])

/-- A line without a message derives its identity from itself. -/
def readAlert (line : String) (j : platform.json.Object) : Option ParsedAlert :=
  let idsMessage := platform.json.optString j "ids_message" ""
  (platform.json.getLong j "event_id").map fun eventId => {
    eventId
    severity := platform.json.optString j "severity" "MEDIUM"
    timestampMs := (platform.json.optLong j "timestamp_s" 0 * 1000 +
      (platform.json.optLong j "timestamp_ns" 0).tdiv 1000000).bmod (2 ^ 64)
    idsMessageHex := if idsMessage = "" then sha256Hex platform line else idsMessage }

def parseAlertLine (line : String) : Option ParsedAlert :=
  match platform.json.ofText line with
  | .error _ => none
  | .ok j => readAlert platform line j

def makeEventId (deviceId nodeType idsMessageHex : String) : String :=
  deviceId ++ "-" ++ nodeType ++ "-" ++
    String.ofList ((sha256Hex platform idsMessageHex).toList.take 32)

def alertContent (source : AlertSource) (line : String) : Option (List (String × OrgValue)) :=
  match parseAlertLine platform line with
  | none => none
  | some a =>
      let raw := (platform.ofText line).toOption.getD []
      some [("eventId", .string (makeEventId platform source.deviceId source.nodeType
          a.idsMessageHex)), ("eventType", .string (eventTypeName source.nodeType a.eventId)),
        ("severity", .string a.severity), ("timestamp", .long (.ofInt a.timestampMs)),
        ("ecuCode", .string source.ecuCode), ("nodeType", .string source.nodeType),
        ("ruleVersion", .string source.ruleVersion), ("replay", .boolean false),
        ("raw", .object raw)]

/-- The topic segment is the daemon's. An envelope that cannot be written is null. -/
def buildAlertEnvelope (source : AlertSource) (nowMs : Int) (rawLines : List String) :
    Option String :=
  let content := rawLines.filterMap (alertContent platform source)
  if content.isEmpty then none
  else
    let seg := nodeTypeToTopicSeg source.nodeType
    if seg = "unknown" then none
    else
      platform.java.write (.object [("msg_type", .string ("alert_" ++ seg)),
        ("protocol_version", .string "1.0"), ("timestamp", .long (.ofInt nowMs)),
        ("manufacturer", .string source.manufacturer),
        ("content", .array (content.map .object))])

end Envelopes

end VsocEnvelope

end Idsm.Android
