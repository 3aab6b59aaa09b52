import Idsm.Dashboard.Context
import Idsm.Foundation.LineProtocol

/-! The ingest handlers of the two dashboard servers: what a body must have, and the line
they write for it. -/

set_option autoImplicit false

namespace Idsm.Dashboard

/-- The decimal digits of a number, neither first nor last of them zero. -/
structure Significand where
  digits : List Nat
  small : ∀ digit ∈ digits, digit < 10
  first : ∀ digit ∈ digits.head?, digit ≠ 0
  last : ∀ digit ∈ digits.getLast?, digit ≠ 0
  nonempty : digits ≠ []
  deriving DecidableEq

/-- A number of a parsed body: with its shortest digits, `0.digits * 10 ^ point`, or too large
for a finite one. -/
inductive JsNumber where
  | zero
  | finite (negative : Bool) (significand : Significand) (point : Int)
  | infinite (negative : Bool)
  deriving DecidableEq

def digitChars (digits : List Nat) : List Char := digits.map Nat.digitChar

/-- `Number::toString` of a magnitude. -/
def magnitudeText (digits : List Nat) (point : Int) : List Char :=
  let count : Int := digits.length
  if count ≤ point ∧ point ≤ 21 then
    digitChars digits ++ List.replicate (point - count).toNat '0'
  else if 0 < point ∧ point ≤ 21 then
    digitChars (digits.take point.toNat) ++ '.' :: digitChars (digits.drop point.toNat)
  else if -6 < point ∧ point ≤ 0 then
    '0' :: '.' :: (List.replicate (-point).toNat '0' ++ digitChars digits)
  else
    let exponent := (if 0 < point then ['+'] else ['-']) ++
      Nat.toDigits 10 (point - 1).natAbs
    digitChars (digits.take 1) ++
      (if digits.length = 1 then [] else '.' :: digitChars (digits.drop 1)) ++ 'e' :: exponent

def JsNumber.text : JsNumber → String
  | .zero => "0"
  | .infinite negative => if negative then "-Infinity" else "Infinity"
  | .finite negative significand point =>
      String.ofList ((if negative then ['-'] else []) ++ magnitudeText significand.digits point)

def Significand.value (significand : Significand) : Nat :=
  significand.digits.foldl (fun value digit => value * 10 + digit) 0

/-- The number as a whole one. -/
def JsNumber.whole : JsNumber → Option Int
  | .zero => some 0
  | .infinite _ => none
  | .finite negative significand point =>
      if (significand.digits.length : Int) ≤ point then
        let magnitude : Int := significand.value * 10 ^ (point - significand.digits.length).toNat
        some (if negative then -magnitude else magnitude)
      else none

/-- What `JSON.parse` makes of a body. -/
inductive JsValue where
  | null
  | boolean (value : Bool)
  | number (value : JsNumber)
  | string (text : String)
  | array (items : List JsValue)
  | object (members : List (String × JsValue))

mutual

/-- A value in a template literal, or as a property's key. An object whose own `toString` hides
the inherited one cannot be converted. -/
def templateText : JsValue → Option String
  | .null => some "null"
  | .boolean value => some (toString value)
  | .number value => some value.text
  | .string text => some text
  | .array items => (itemTexts items).map fun texts => ",".intercalate texts
  | .object members =>
      if members.any (·.1 == "toString") then none else some "[object Object]"

/-- The texts that `Array.prototype.join` joins. -/
def itemTexts : List JsValue → Option (List String)
  | [] => some []
  | .null :: items => (itemTexts items).map ("" :: ·)
  | item :: items => do
      let text ← templateText item
      let texts ← itemTexts items
      return text :: texts

end

/-- A property of a parsed body. The last of several equal names counts. -/
def JsValue.get? (value : JsValue) (name : String) : Option JsValue :=
  match value with
  | .object members => (members.reverse.find? (·.1 == name)).map Prod.snd
  | _ => none

/-- The nine required values of a body. -/
structure Violation where
  idsMessage : JsValue
  idsmInstanceId : JsValue
  sensorInstanceId : JsValue
  eventId : JsValue
  count : JsValue
  severity : String
  contextDataVersion : JsValue
  payload : JsValue
  payloadLen : JsValue

def validSeverities : List String := ["LOW", "MEDIUM", "HIGH", "CRITICAL"]

def JsValue.required (body : JsValue) (name : String) : Option JsValue :=
  match body.get? name with
  | none => none
  | some .null => none
  | some value => some value

/-- Both servers: no required field is missing, and the severity is one of four. -/
def readViolation (body : JsValue) : Option Violation := do
  let idsMessage ← body.required "ids_message"
  let idsmInstanceId ← body.required "idsm_instance_id"
  let sensorInstanceId ← body.required "sensor_instance_id"
  let eventId ← body.required "event_id"
  let count ← body.required "count"
  let severity ← body.required "severity"
  let contextDataVersion ← body.required "context_data_version"
  let payload ← body.required "payload"
  let payloadLen ← body.required "payload_len"
  match severity with
  | .string severity =>
      if severity ∈ validSeverities then
        some ⟨idsMessage, idsmInstanceId, sensorInstanceId, eventId, count, severity,
          contextDataVersion, payload, payloadLen⟩
      else none
  | _ => none

def JsValue.isNumber : JsValue → Bool
  | .number _ => true
  | _ => false

def JsValue.isString : JsValue → Bool
  | .string _ => true
  | _ => false

/-- The types the cloud server checks. -/
def Violation.typed (event : Violation) : Bool :=
  event.idsmInstanceId.isNumber && event.sensorInstanceId.isNumber && event.eventId.isNumber &&
    event.count.isNumber && event.contextDataVersion.isNumber && event.payloadLen.isNumber &&
    event.payload.isString && event.idsMessage.isString

inductive Server where
  | cloud
  | local
  deriving DecidableEq

/-- The event of a body that is not answered with an error. -/
def Server.accept (server : Server) (body : JsValue) : Option Violation :=
  match server with
  | .local => readViolation body
  | .cloud => (readViolation body).filter Violation.typed

/-- Functions of the runtime: the text of bytes, and the bytes of a value that is no text. -/
structure Runtime where
  utf8ToString : List UInt8 → String
  bufferFrom : JsValue → Option (List UInt8)

/-- `HOST_DETECTOR_NAMES`, its keys as texts. -/
def hostDetectorNames : List (String × String) :=
  [("32801", "HOST_UNKNOWN_EXEC"), ("32802", "HOST_PRIV_ESC"), ("32803", "HOST_FORK_FLOOD"),
    ("32804", "HOST_REV_SHELL"), ("32805", "HOST_FILE_MOD"), ("32806", "HOST_NEW_SETUID"),
    ("32807", "HOST_KMOD_LOAD"), ("32808", "HOST_ZOMBIE_STORM"), ("32809", "HOST_RES_EXHAUST"),
    ("32810", "HOST_ROOT_SHELL")]

/-- What every object inherits. None of these is a string. -/
def inheritedNames : List String :=
  ["constructor", "__defineGetter__", "__defineSetter__", "hasOwnProperty", "__lookupGetter__",
    "__lookupSetter__", "isPrototypeOf", "propertyIsEnumerable", "toString", "valueOf",
    "__proto__", "toLocaleString"]

structure HostContext where
  detector : String
  detectorType : Nat
  flags : Nat
  hostPid : Nat
  uid : Nat
  proc : String
  aux : Nat
  count : Nat
  summary : String
  deriving DecidableEq

inductive Decoded where
  | eth (context : EthContext)
  | host (context : HostContext)
  deriving DecidableEq

/-- The host context. A key that names something inherited gives a detector that is no
string, and its first use as one throws. -/
def decodeHostContext (runtime : Runtime) (raw : List UInt8) (eventId : JsValue) :
    Option HostContext := do
  let key ← templateText eventId
  if key ∈ inheritedNames then none
  else
    let detType := readUInt8 raw 0
    let pid := readUInt32BE raw 2
    let uid := readUInt32BE raw 6
    let count := readUInt32BE raw 10
    let aux := readUInt32BE raw 14
    let text := runtime.utf8ToString ((raw.drop 18).take 12)
    let proc := String.ofList (text.toList.takeWhile (· ≠ '\x00'))
    let det := (hostDetectorNames.lookup key).getD ("HOST_TYPE_" ++ toString detType)
    some
      { detector := det
        detectorType := detType
        flags := readUInt8 raw 1
        hostPid := pid
        uid
        proc
        aux
        count
        summary := det ++ " proc=" ++ (if proc = "" then "?" else proc) ++ " pid=" ++
          toString pid ++ " uid=" ++ toString uid ++ summaryEnd aux count }

/-- `Buffer.from(payload, "hex")`. -/
def Runtime.payloadBytes (runtime : Runtime) : JsValue → Option (List UInt8)
  | .string text => some (bufferFromHex text.toList)
  | payload => runtime.bufferFrom payload

/-- No value when the decoder throws, and no context for other layouts. -/
def decodeContext (runtime : Runtime) (payload eventId : JsValue) : Option (Option Decoded) :=
  match runtime.payloadBytes payload with
  | none => some none
  | some raw =>
      if raw.length = 46 then some (some (.eth (decodeEthContext raw)))
      else if raw.length = 32 then
        (decodeHostContext runtime raw eventId).map fun context => some (.host context)
      else some none

def escapeLpString (s : String) : String :=
  String.ofList (s.toList.flatMap fun c => if c = '\\' ∨ c = '"' then ['\\', c] else [c])

def escapeLpTag (s : String) : String :=
  String.ofList (s.toList.flatMap fun c =>
    if c = ' ' ∨ c = ',' ∨ c = '=' then ['\\', c] else [c])

/-- `value.replace` is there for strings only. -/
def JsValue.escaped : JsValue → Option String
  | .string text => some (escapeLpString text)
  | _ => none

def quoted (name text : String) : String := name ++ "=\"" ++ text ++ "\""

def counted (name text : String) : String := name ++ "=" ++ text ++ "i"

def Decoded.detector : Option Decoded → String
  | none => "UNKNOWN"
  | some (.eth context) => context.detector
  | some (.host context) => context.detector

/-- The fields of a decoded context. -/
def decodedFields : Option Decoded → List String
  | none => []
  | some (.eth context) =>
      [counted "detector_type" (toString context.detectorType),
        counted "aux" (toString context.aux),
        quoted "summary" (escapeLpString context.summary),
        quoted "src_ip" (escapeLpString context.srcIp),
        quoted "dst_ip" (escapeLpString context.dstIp),
        counted "src_port" (toString context.srcPort),
        counted "dst_port" (toString context.dstPort),
        quoted "proto" (escapeLpString context.proto)]
  | some (.host context) =>
      [counted "detector_type" (toString context.detectorType),
        counted "aux" (toString context.aux),
        quoted "summary" (escapeLpString context.summary),
        quoted "proc" (escapeLpString context.proc),
        counted "host_pid" (toString context.hostPid)]

/-- The line of an event, when no step of it throws. -/
def toLineProtocol (event : Violation) (decoded : Option Decoded) (receivedAtNs : Int) :
    Option String := do
  let idsmInstance ← templateText event.idsmInstanceId
  let sensorInstance ← templateText event.sensorInstanceId
  let tags := ",".intercalate
    ["severity=" ++ escapeLpTag event.severity,
      "idsm_instance=" ++ idsmInstance,
      "sensor_instance=" ++ sensorInstance,
      "detector=" ++ escapeLpTag (Decoded.detector decoded)]
  let eventId ← templateText event.eventId
  let count ← templateText event.count
  let contextDataVersion ← templateText event.contextDataVersion
  let payloadLen ← templateText event.payloadLen
  let payload ← event.payload.escaped
  let idsMessage ← event.idsMessage.escaped
  let fields := ",".intercalate
    ([counted "event_id" eventId, counted "count" count,
      counted "context_data_version" contextDataVersion, counted "payload_len" payloadLen,
      quoted "payload" payload, quoted "ids_message" idsMessage] ++ decodedFields decoded)
  return "idsm_violations," ++ tags ++ " " ++ fields ++ " " ++ toString receivedAtNs

/-- What a server writes for an accepted event. -/
def violationLine (runtime : Runtime) (event : Violation) (receivedAtNs : Int) : Option String := do
  let decoded ← decodeContext runtime event.payload event.eventId
  toLineProtocol event decoded receivedAtNs

end Idsm.Dashboard
