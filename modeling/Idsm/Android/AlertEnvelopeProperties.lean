import Idsm.Android.JsonAgreement
import Idsm.Android.VsocEnvelope
import Idsm.Managerd.AlertUploadProperties
import Idsm.Managerd.FieldKindProperties

/-! What the two managers make of one batch of alert lines: which lines they keep, and the
fields by which the cloud tells one alert from another. -/

set_option autoImplicit false

namespace Idsm.Android.VsocEnvelope

open Idsm.Foundation
open Idsm.Json (Value lookup wholePart)
open Idsm.Managerd (AlertSource EnvelopeLibrary ValidAlert bind_eq_ok getUInt32 hexWord4
  hostEventTypeName nodeTypeToTopicSeg parseBytes reads_getSigned reads_getString)

/-! The names of event types. -/

section Names

/-- The daemon's name of an event. -/
def daemonEventType (nodeType : String) (eventId : UInt32) : String :=
  if nodeType = "HIDPS" then hostEventTypeName eventId else "EVT_" ++ hexWord4 eventId

theorem hexLong4_natCast (eventId : UInt32) : hexLong4 (eventId.toNat : Int) = hexWord4 eventId := by
  have small : ((eventId.toNat : Int) % 2 ^ 64).toNat = eventId.toNat := by
    have bound := eventId.toNat_lt
    omega
  rw [hexLong4, hexWord4, small]

private theorem hostEventTypeName_eq (eventId : UInt32) :
    hostEventTypeName eventId =
      match hostEventNames.lookup (eventId.toNat : Int) with
      | some name => name
      | none => "EVT_" ++ hexWord4 eventId := by
  unfold hostEventTypeName
  split
  all_goals try rfl
  have absent : hostEventNames.lookup (eventId.toNat : Int) = none := by
    rw [List.lookup_eq_none_iff]
    intro entry member
    simp only [hostEventNames, List.mem_cons, List.not_mem_nil, or_false] at member
    simp only [← UInt32.toNat_inj, UInt32.reduceToNat, imp_false] at *
    rw [bne_iff_ne]
    rcases member with rfl | rfl | rfl | rfl | rfl | rfl | rfl | rfl | rfl | rfl <;>
      simp only [ne_eq] <;> omega
  rw [absent]

theorem eventTypeName_natCast (nodeType : String) (eventId : UInt32) :
    eventTypeName nodeType (eventId.toNat : Int) = daemonEventType nodeType eventId := by
  have host := (hostEventTypeName_eq eventId).symm
  unfold eventTypeName daemonEventType
  rw [hexLong4_natCast]
  exact congrArg (fun name => if nodeType = "HIDPS" then name else "EVT_" ++ hexWord4 eventId) host

private theorem length_hexWord4 (eventId : UInt32) : (hexWord4 eventId).length ≤ 8 := by
  have digits := (Nat.length_toDigits_le_iff (n := eventId.toNat) (b := 16) (k := 8) (by omega)
    (by omega)).mpr (by have bound := eventId.toNat_lt; omega)
  rw [hexWord4, String.length_ofList, List.leftpad, List.length_append, List.length_replicate,
    List.length_map]
  omega

private theorem length_hexLong4 {long : Int} (low : -2 ^ 63 ≤ long) (high : long < 2 ^ 63)
    (wide : long < 0 ∨ 2 ^ 32 ≤ long) : 8 < (hexLong4 long).length := by
  have digits : ¬ (Nat.toDigits 16 (long % 2 ^ 64).toNat).length ≤ 8 := by
    rw [Nat.length_toDigits_le_iff (by omega) (by omega)]
    omega
  rw [hexLong4, String.length_ofList, List.leftpad, List.length_append, List.length_replicate,
    List.length_map]
  omega

private theorem lookup_wide {long : Int} (wide : long < 0 ∨ 2 ^ 32 ≤ long) :
    hostEventNames.lookup long = none := by
  rw [List.lookup_eq_none_iff]
  intro entry member
  have bounds : ∀ entry ∈ hostEventNames, 0 ≤ entry.1 ∧ entry.1 < 2 ^ 32 := by
    decide
  have bound := bounds entry member
  rw [bne_iff_ne]
  omega

theorem eventTypeName_wide (nodeType : String) {long : Int}
    (wide : long < 0 ∨ 2 ^ 32 ≤ long) : eventTypeName nodeType long = "EVT_" ++ hexLong4 long := by
  rw [eventTypeName, lookup_wide wide]
  exact ite_self _

/-- A name of a detector, or the number's digits. -/
private theorem daemonEventType_or (nodeType : String) (eventId : UInt32) :
    (daemonEventType nodeType eventId).toList.head? = some 'D' ∨
      daemonEventType nodeType eventId = "EVT_" ++ hexWord4 eventId := by
  rw [daemonEventType, hostEventTypeName_eq]
  split
  case isFalse other => exact .inr rfl
  case isTrue host =>
    cases named : hostEventNames.lookup (eventId.toNat : Int) with
    | none => exact .inr rfl
    | some name =>
        obtain ⟨before, after, listed, _⟩ := List.lookup_eq_some_iff.mp named
        have heads : ∀ entry ∈ hostEventNames, entry.2.toList.head? = some 'D' := by
          decide
        exact .inl (heads ((eventId.toNat : Int), name) (by simp [listed]))

/-- A number that does not fit 32 bits has a name of its own. -/
theorem daemonEventType_ne (nodeType : String) (eventId : UInt32) {long : Int}
    (low : -2 ^ 63 ≤ long) (high : long < 2 ^ 63) (wide : long < 0 ∨ 2 ^ 32 ≤ long) :
    daemonEventType nodeType eventId ≠ eventTypeName nodeType long := by
  rw [eventTypeName_wide nodeType wide]
  intro same
  obtain head | digits := daemonEventType_or nodeType eventId
  · rw [same, String.toList_append] at head
    simp at head
  · have lengths := congrArg String.length (digits.symm.trans same)
    rw [String.length_append, String.length_append] at lengths
    have short := length_hexWord4 eventId
    have long := length_hexLong4 low high wide
    omega

theorem eventType_eq_iff (nodeType : String) {java : Java} {id : Value} {other : OrgValue}
    {number : ℚ} (denoted : id.number? = some number) (denotedToo : other.number? = some number)
    {eventId : UInt32} {long : Int} (daemon : getUInt32 id = .ok eventId)
    (app : other.toLong java = some long) :
    daemonEventType nodeType eventId = eventTypeName nodeType long ↔
      0 ≤ wholePart number ∧ wholePart number < 2 ^ 32 := by
  obtain rfl : max (-2 ^ 63) (min (wholePart number) (2 ^ 63 - 1)) = long := by
    rw [OrgValue.toLong_of_number java denotedToo] at app
    exact Option.some.inj app
  constructor
  · intro same
    by_contra wide
    exact daemonEventType_ne nodeType eventId (by omega) (by omega) (by omega) same
  · rintro ⟨low, high⟩
    rw [getUInt32, Value.getLongLong_of_number denoted (by omega) (by omega)] at daemon
    obtain rfl : UInt32.ofInt (wholePart number) = eventId := Except.ok.inj daemon
    have whole : ((UInt32.ofInt (wholePart number)).toNat : Int) =
        max (-2 ^ 63) (min (wholePart number) (2 ^ 63 - 1)) := by
      simp only [UInt32.ofInt, UInt32.toNat_ofNat']
      omega
    rw [← whole, eventTypeName_natCast]

end Names

/-! The lines that the daemon keeps. -/

section Daemon

variable {library : EnvelopeLibrary} {line : List UInt8}

/-- The kinds that the daemon asks of a document. -/
structure ReadsInDaemon (document : Value) : Prop where
  isObject : document.isObject = true
  eventId : ∃ id, document.member? "event_id" = some id ∧ id.isArithmetic = true
  numbers : ∀ key ∈ ["timestamp_s", "timestamp_ns"], ∀ value,
    document.member? key = some value → value.isArithmetic = true
  texts : ∀ key ∈ ["severity", "ids_message"], ∀ value,
    document.member? key = some value → value.isString = true

/-- The fields of a document as the daemon reads them. -/
structure DaemonFields (document : Value) where
  id : Value
  eventId : UInt32
  severity : String
  s : Int
  ns : Int
  hex : String
  idFound : document.at "event_id" = .ok id
  idRead : getUInt32 id = .ok eventId
  severityRead : document.valueOr "severity" "MEDIUM" Value.getString = .ok severity
  sRead : document.valueOr "timestamp_s" 0 Value.getLongLong = .ok s
  nsRead : document.valueOr "timestamp_ns" 0 Value.getLongLong = .ok ns
  hexRead : document.valueOr "ids_message" "" Value.getString = .ok hex

def milliseconds (s ns : Int) : Int := (s * 1000 + ns.tdiv 1000000).bmod (2 ^ 64)

def DaemonFields.alert (library : EnvelopeLibrary) (line : List UInt8) {document : Value}
    (fields : DaemonFields document) : Managerd.ParsedAlert where
  eventId := fields.eventId
  severity := fields.severity
  timestampMs := milliseconds fields.s fields.ns
  idsMessageHex := if fields.hex = "" then Managerd.sha256Hex library line else fields.hex

theorem readAlert_eq_ok {document : Value} {alert : Managerd.ParsedAlert} :
    Managerd.readAlert library line document = .ok alert ↔
      ∃ fields : DaemonFields document, fields.alert library line = alert := by
  simp only [Managerd.readAlert, bind_eq_ok]
  constructor
  · rintro ⟨id, idFound, eventId, idRead, severity, severityRead, s, sRead, ns, nsRead, hex,
      hexRead, built⟩
    exact ⟨⟨id, eventId, severity, s, ns, hex, idFound, idRead, severityRead, sRead, nsRead,
      hexRead⟩, Except.ok.inj built⟩
  · rintro ⟨fields, rfl⟩
    exact ⟨fields.id, fields.idFound, fields.eventId, fields.idRead, fields.severity,
      fields.severityRead, fields.s, fields.sRead, fields.ns, fields.nsRead, fields.hex,
      fields.hexRead, rfl⟩

theorem readAlert_fields {document : Value} (fields : DaemonFields document) :
    Managerd.readAlert library line document = .ok (fields.alert library line) :=
  readAlert_eq_ok.2 ⟨fields, rfl⟩

private theorem valueOr_reads {α : Type} {members : List (String × Value)} {key : String}
    {default : α} {get : Value → Except Json.Error α} {kind : Value → Bool}
    (reads : ∀ value, (∃ result, get value = .ok result) ↔ kind value = true) :
    (∃ result, (Value.object members).valueOr key default get = .ok result) ↔
      ∀ value, (Value.object members).member? key = some value → kind value = true := by
  rw [Value.valueOr, Value.member?]
  cases lookup key members with
  | none => simp
  | some found => simp [reads]

private theorem isObject_of_at {document id : Value} {key : String}
    (found : document.at key = .ok id) : ∃ members, document = .object members := by
  cases document with
  | object members => exact ⟨members, rfl⟩
  | null => exact nomatch found
  | boolean flag => exact nomatch found
  | unsigned whole => exact nomatch found
  | integer whole => exact nomatch found
  | float double => exact nomatch found
  | string text => exact nomatch found
  | array items => exact nomatch found

theorem at_eq_ok {members : List (String × Value)} {key : String} {found : Value} :
    (Value.object members).at key = .ok found ↔ lookup key members = some found := by
  rw [Value.at]
  cases lookup key members with
  | none => simp
  | some value => simp

private theorem exists_getUInt32 {id : Value} :
    (∃ eventId, getUInt32 id = .ok eventId) ↔ id.isArithmetic = true := by
  rw [← reads_getSigned 64, getUInt32, Value.getLongLong]
  cases id.getSigned 64 with
  | error error => simp [Except.map]
  | ok number => simp [Except.map]

/-- A document is an alert if and only if its fields have the daemon's kinds. -/
theorem exists_daemonFields {document : Value} :
    Nonempty (DaemonFields document) ↔ ReadsInDaemon document := by
  constructor
  · rintro ⟨fields⟩
    obtain ⟨members, rfl⟩ := isObject_of_at fields.idFound
    refine ⟨rfl, ⟨fields.id, at_eq_ok.1 fields.idFound, exists_getUInt32.1 ⟨_, fields.idRead⟩⟩,
      ?_, ?_⟩
    · intro key listed
      simp only [List.mem_cons, List.not_mem_nil, or_false] at listed
      rcases listed with rfl | rfl
      · exact (valueOr_reads fun value => reads_getSigned 64).mp ⟨_, fields.sRead⟩
      · exact (valueOr_reads fun value => reads_getSigned 64).mp ⟨_, fields.nsRead⟩
    · intro key listed
      simp only [List.mem_cons, List.not_mem_nil, or_false] at listed
      rcases listed with rfl | rfl
      · exact (valueOr_reads fun value => reads_getString).mp ⟨_, fields.severityRead⟩
      · exact (valueOr_reads fun value => reads_getString).mp ⟨_, fields.hexRead⟩
  · rintro ⟨isObject, ⟨id, found, arithmetic⟩, numbers, texts⟩
    cases document with
    | object members =>
        obtain ⟨eventId, idRead⟩ := exists_getUInt32.2 arithmetic
        obtain ⟨s, sRead⟩ := (valueOr_reads fun value => reads_getSigned 64).mpr
          (numbers "timestamp_s" (by simp))
        obtain ⟨ns, nsRead⟩ := (valueOr_reads fun value => reads_getSigned 64).mpr
          (numbers "timestamp_ns" (by simp))
        obtain ⟨severity, severityRead⟩ := (valueOr_reads fun value => reads_getString).mpr
          (texts "severity" (by simp))
        obtain ⟨hex, hexRead⟩ := (valueOr_reads fun value => reads_getString).mpr
          (texts "ids_message" (by simp))
        exact ⟨⟨id, eventId, severity, s, ns, hex, at_eq_ok.2 found, idRead, severityRead, sRead,
          nsRead, hexRead⟩⟩
    | null => exact nomatch isObject
    | boolean flag => exact nomatch isObject
    | unsigned whole => exact nomatch isObject
    | integer whole => exact nomatch isObject
    | float double => exact nomatch isObject
    | string text => exact nomatch isObject
    | array items => exact nomatch isObject

end Daemon

/-! The records of a line. -/

section Records

/-- The fields of a record that the cloud compares. -/
def recordKeys : List String := ["eventId", "eventType", "severity", "timestamp", "raw"]

/-- Two records with the same identity, name, severity, time and line. -/
def SameRecord (record : Value) (other : List (String × OrgValue)) : Prop :=
  ∀ key ∈ recordKeys, Option.Rel SameJson (record.member? key) (OrgValue.member? other key)

def daemonRecord (library : EnvelopeLibrary) (source : AlertSource) (document : Value)
    (a : Managerd.ParsedAlert) : Value :=
  .object [("eventId", .string (Managerd.makeEventId library source.deviceId source.nodeType
      a.idsMessageHex)), ("eventType", .string (daemonEventType source.nodeType a.eventId)),
    ("severity", .string a.severity), ("timestamp", Managerd.longLongValue a.timestampMs),
    ("ecuCode", .string source.ecuCode), ("nodeType", .string source.nodeType),
    ("ruleVersion", .string source.ruleVersion), ("replay", .boolean false), ("raw", document)]

def appRecord (platform : EnvelopePlatform) (source : AlertSource)
    (object : List (String × OrgValue)) (a : ParsedAlert) : List (String × OrgValue) :=
  [("eventId", .string (makeEventId platform source.deviceId source.nodeType a.idsMessageHex)),
    ("eventType", .string (eventTypeName source.nodeType a.eventId)),
    ("severity", .string a.severity), ("timestamp", .long (.ofInt a.timestampMs)),
    ("ecuCode", .string source.ecuCode), ("nodeType", .string source.nodeType),
    ("ruleVersion", .string source.ruleVersion), ("replay", .boolean false),
    ("raw", .object object)]

variable {library : EnvelopeLibrary} {platform : EnvelopePlatform} {source : AlertSource}

theorem sameRecord_iff {document : Value} {object : List (String × OrgValue)}
    {a : Managerd.ParsedAlert} {b : ParsedAlert} :
    SameRecord (daemonRecord library source document a) (appRecord platform source object b) ↔
      Managerd.makeEventId library source.deviceId source.nodeType a.idsMessageHex =
        makeEventId platform source.deviceId source.nodeType b.idsMessageHex ∧
      daemonEventType source.nodeType a.eventId = eventTypeName source.nodeType b.eventId ∧
      a.severity = b.severity ∧
      (Int64.ofInt a.timestampMs).toInt = (Int64.ofInt b.timestampMs).toInt ∧
      SameJson document (.object object) := by
  simp [SameRecord, recordKeys, daemonRecord, appRecord, Value.member?, OrgValue.member?,
    SameJson.string_iff, SameJson.integer_iff, Managerd.longLongValue]

theorem alertContent_daemon {line : List UInt8} {record : Value} :
    Managerd.alertContent library source line = some record ↔
      ∃ document, parseBytes library line = some document ∧
        ∃ fields : DaemonFields document,
          daemonRecord library source document (fields.alert library line) = record := by
  rw [Managerd.alertContent, Managerd.parseAlertLine]
  cases parsed : parseBytes library line with
  | none => simp
  | some document =>
      simp only [Option.some.injEq, exists_eq_left', Option.getD_some]
      cases read : Managerd.readAlert library line document with
      | error error =>
          simp only [Except.mapError, reduceCtorEq, false_iff]
          rintro ⟨fields, _⟩
          rw [readAlert_fields fields] at read
          cases read
      | ok a =>
          simp only [Except.mapError, Option.some.injEq]
          constructor
          · rintro rfl
            obtain ⟨fields, rfl⟩ := readAlert_eq_ok.1 read
            exact ⟨fields, rfl⟩
          · rintro ⟨fields, rfl⟩
            rw [readAlert_fields fields] at read
            rw [← Except.ok.inj read]
            rfl

theorem alertContent_app {line : String} {record : List (String × OrgValue)} :
    alertContent platform source line = some record ↔
      ∃ object, platform.ofText line = .ok object ∧
        ∃ a, readAlert platform line object = some a ∧
          appRecord platform source object a = record := by
  have reader : platform.json.ofText line = platform.ofText line := rfl
  rw [alertContent, parseAlertLine, reader]
  cases parsed : platform.ofText line with
  | error message => simp
  | ok object =>
      simp only [Except.ok.injEq, exists_eq_left', Except.toOption, Option.getD_some]
      cases readAlert platform line object with
      | none => simp
      | some a => simp [appRecord]

end Records

/-! One line. -/

section Line

variable {library : EnvelopeLibrary} {platform : EnvelopePlatform} {source : AlertSource}
  {line : String}

/-- The daemon keeps the line for the document in it. -/
def KeptByDaemon (library : EnvelopeLibrary) (line : String) (document : Value) : Prop :=
  parseBytes library (utf8 line) = some document ∧ ReadsInDaemon document

/-- The Android manager keeps the line for the object in it. -/
def KeptByApp (platform : EnvelopePlatform) (line : String)
    (object : List (String × OrgValue)) : Prop :=
  platform.ofText line = .ok object ∧
    ∃ eventId, platform.json.getLong object "event_id" = some eventId

/-- Both read the same JSON value, a number of an event that fits 32 bits, and one time. -/
structure Fits (platform : EnvelopePlatform) (document : Value)
    (object : List (String × OrgValue)) : Prop where
  same : SameJson document (.object object)
  eventId : ∀ id number, document.at "event_id" = .ok id → id.number? = some number →
    0 ≤ wholePart number ∧ wholePart number < 2 ^ 32
  time : ∀ s ns, document.valueOr "timestamp_s" 0 Value.getLongLong = .ok s →
    document.valueOr "timestamp_ns" 0 Value.getLongLong = .ok ns →
      milliseconds s ns = milliseconds (platform.json.optLong object "timestamp_s" 0)
        (platform.json.optLong object "timestamp_ns" 0)

theorem readAlert_eq_some {object : List (String × OrgValue)} {a : ParsedAlert} :
    readAlert platform line object = some a ↔
      platform.json.getLong object "event_id" = some a.eventId ∧
        a.severity = platform.json.optString object "severity" "MEDIUM" ∧
        a.timestampMs = milliseconds (platform.json.optLong object "timestamp_s" 0)
          (platform.json.optLong object "timestamp_ns" 0) ∧
        a.idsMessageHex = if platform.json.optString object "ids_message" "" = "" then
            sha256Hex platform line
          else platform.json.optString object "ids_message" "" := by
  unfold readAlert
  obtain ⟨eventId, severity, timestampMs, idsMessageHex⟩ := a
  cases platform.json.getLong object "event_id" with
  | none => simp
  | some id =>
      simp only [Option.map_some, Option.some.injEq, ParsedAlert.mk.injEq, milliseconds]
      tauto

/-- Where the daemon reads a text, the other manager reads the same one. -/
theorem text_agrees {document : Value} {object : List (String × OrgValue)}
    (same : SameJson document (.object object)) {key default text : String}
    (read : document.valueOr key default Value.getString = .ok text) :
    platform.json.optString object key default = text := by
  have reader : platform.json.optString object key default =
      ((OrgValue.member? object key).map (OrgValue.toText platform.java)).getD default := rfl
  rw [reader]
  cases document with
  | object members =>
      have related := same.member key
      rw [Value.valueOr] at read
      cases found : lookup key members with
      | none =>
          rw [found] at related read
          cases foundToo : OrgValue.member? object key with
          | none => exact Except.ok.inj read
          | some other =>
              rw [foundToo] at related
              cases related
      | some value =>
          rw [found] at related read
          cases foundToo : OrgValue.member? object key with
          | none =>
              rw [foundToo] at related
              cases related
          | some other =>
              rw [foundToo] at related
              cases related with
              | some sameMember => exact sameMember.getString read platform.java
  | null => cases read
  | boolean flag => cases read
  | unsigned whole => cases read
  | integer whole => cases read
  | float double => cases read
  | string text => cases read
  | array items => cases read

theorem makeEventId_agrees (digest : platform.sha256 = library.sha256)
    (deviceId nodeType text : String) :
    Managerd.makeEventId library deviceId nodeType text =
      makeEventId platform deviceId nodeType text := by
  rw [Managerd.makeEventId, makeEventId, Managerd.sha256Hex, sha256Hex, digest]

/-- The message from which a record's identity is derived. -/
theorem message_agrees (digest : platform.sha256 = library.sha256) {document : Value}
    {object : List (String × OrgValue)} (same : SameJson document (.object object))
    (fields : DaemonFields document) {a : ParsedAlert}
    (read : readAlert platform line object = some a) :
    (fields.alert library (utf8 line)).idsMessageHex = a.idsMessageHex := by
  rw [(readAlert_eq_some.1 read).2.2.2, text_agrees same fields.hexRead, DaemonFields.alert,
    Managerd.sha256Hex, sha256Hex, digest]

/-- Both name the event alike if and only if its number fits 32 bits. -/
theorem eventType_agrees {document : Value} {object : List (String × OrgValue)}
    (same : SameJson document (.object object)) (fields : DaemonFields document) {a : ParsedAlert}
    (read : readAlert platform line object = some a) (nodeType : String) :
    daemonEventType nodeType fields.eventId = eventTypeName nodeType a.eventId ↔
      ∀ id number, document.at "event_id" = .ok id → id.number? = some number →
        0 ≤ wholePart number ∧ wholePart number < 2 ^ 32 := by
  obtain ⟨members, rfl⟩ := isObject_of_at fields.idFound
  have related := same.member "event_id"
  rw [at_eq_ok.1 fields.idFound] at related
  have long : (OrgValue.member? object "event_id").bind (OrgValue.toLong platform.java) =
      some a.eventId := (readAlert_eq_some.1 read).1
  cases found : OrgValue.member? object "event_id" with
  | none =>
      rw [found] at long
      exact nomatch long
  | some other =>
      rw [found] at long related
      cases related with
      | some sameId =>
          obtain ⟨number, denoted, denotedToo⟩ :=
            sameId.number_of_reads (exists_getUInt32.1 ⟨_, fields.idRead⟩) long
          rw [eventType_eq_iff nodeType denoted denotedToo fields.idRead long]
          constructor
          · intro fits id another idFound denotedId
            rw [fields.idFound] at idFound
            cases Except.ok.inj idFound
            rw [denoted] at denotedId
            cases Option.some.inj denotedId
            exact fits
          · exact fun fits => fits fields.id number fields.idFound denoted

theorem sameRecord_iff_fits (digest : platform.sha256 = library.sha256) {document : Value}
    {object : List (String × OrgValue)} (fields : DaemonFields document) {a : ParsedAlert}
    (read : readAlert platform line object = some a) :
    SameRecord (daemonRecord library source document (fields.alert library (utf8 line)))
        (appRecord platform source object a) ↔
      Fits platform document object := by
  have times : (Int64.ofInt (fields.alert library (utf8 line)).timestampMs).toInt =
      (Int64.ofInt a.timestampMs).toInt ↔
        ∀ s ns, document.valueOr "timestamp_s" 0 Value.getLongLong = .ok s →
          document.valueOr "timestamp_ns" 0 Value.getLongLong = .ok ns →
            milliseconds s ns = milliseconds (platform.json.optLong object "timestamp_s" 0)
              (platform.json.optLong object "timestamp_ns" 0) := by
    have width : Int64.size = 2 ^ 64 := rfl
    rw [(readAlert_eq_some.1 read).2.2.1, DaemonFields.alert, Int64.toInt_ofInt,
      Int64.toInt_ofInt, width]
    simp only [milliseconds, Int.bmod_bmod, fields.sRead, fields.nsRead, Except.ok.injEq]
    constructor
    · rintro same s ns rfl rfl
      exact same
    · exact fun each => each _ _ rfl rfl
  rw [sameRecord_iff, times]
  constructor
  · rintro ⟨_, named, _, timed, same⟩
    exact ⟨same, (eventType_agrees same fields read source.nodeType).mp named, timed⟩
  · intro fits
    refine ⟨?_, (eventType_agrees fits.same fields read source.nodeType).mpr fits.eventId, ?_,
      fits.time, fits.same⟩
    · rw [message_agrees digest fits.same fields read, makeEventId_agrees digest]
    · rw [(readAlert_eq_some.1 read).2.1, text_agrees fits.same fields.severityRead]
      rfl

/-- Neither keeps the line, or both do and what they read fits. -/
def LineFits (library : EnvelopeLibrary) (platform : EnvelopePlatform) (line : String) : Prop :=
  ((¬ ∃ document, KeptByDaemon library line document) ∧
      ¬ ∃ object, KeptByApp platform line object) ∨
    ∃ document object, KeptByDaemon library line document ∧ KeptByApp platform line object ∧
      Fits platform document object

theorem exists_daemonRecord :
    (∃ record, Managerd.alertContent library source (utf8 line) = some record) ↔
      ∃ document, KeptByDaemon library line document := by
  simp only [alertContent_daemon]
  constructor
  · rintro ⟨_, document, parsed, fields, _⟩
    exact ⟨document, parsed, exists_daemonFields.1 ⟨fields⟩⟩
  · rintro ⟨document, parsed, reads⟩
    obtain ⟨fields⟩ := exists_daemonFields.2 reads
    exact ⟨_, document, parsed, fields, rfl⟩

theorem exists_appRecord :
    (∃ record, alertContent platform source line = some record) ↔
      ∃ object, KeptByApp platform line object := by
  simp only [alertContent_app]
  constructor
  · rintro ⟨_, object, parsed, a, read, _⟩
    exact ⟨object, parsed, a.eventId, (readAlert_eq_some.1 read).1⟩
  · rintro ⟨object, parsed, eventId, number⟩
    exact ⟨_, object, parsed, ⟨eventId, _, _, _⟩,
      readAlert_eq_some.2 ⟨number, rfl, rfl, rfl⟩, rfl⟩

/-- Both make the same of a line if and only if what they read in it fits. -/
theorem records_agree_iff (digest : platform.sha256 = library.sha256) :
    Option.Rel SameRecord (Managerd.alertContent library source (utf8 line))
        (alertContent platform source line) ↔
      LineFits library platform line := by
  constructor
  · intro related
    cases kept : Managerd.alertContent library source (utf8 line) with
    | none =>
        rw [kept] at related
        cases keptToo : alertContent platform source line with
        | none =>
            refine .inl ⟨?_, ?_⟩
            · rw [← @exists_daemonRecord library source line, kept]
              exact fun ⟨_, impossible⟩ => nomatch impossible
            · rw [← @exists_appRecord platform source line, keptToo]
              exact fun ⟨_, impossible⟩ => nomatch impossible
        | some other =>
            rw [keptToo] at related
            exact nomatch related
    | some record =>
        rw [kept] at related
        cases keptToo : alertContent platform source line with
        | none =>
            rw [keptToo] at related
            exact nomatch related
        | some other =>
            rw [keptToo] at related
            obtain ⟨document, parsed, fields, rfl⟩ := alertContent_daemon.1 kept
            obtain ⟨object, parsedToo, a, read, rfl⟩ := alertContent_app.1 keptToo
            cases related with
            | some same =>
                exact .inr ⟨document, object, ⟨parsed, exists_daemonFields.1 ⟨fields⟩⟩,
                  ⟨parsedToo, a.eventId, (readAlert_eq_some.1 read).1⟩,
                  (sameRecord_iff_fits digest fields read).mp same⟩
  · rintro (⟨dropped, droppedToo⟩ |
      ⟨document, object, ⟨parsed, reads⟩, ⟨parsedToo, eventId, number⟩, fits⟩)
    · rw [← @exists_daemonRecord library source line] at dropped
      rw [← @exists_appRecord platform source line] at droppedToo
      rw [Option.eq_none_iff_forall_ne_some.mpr fun record kept => dropped ⟨record, kept⟩,
        Option.eq_none_iff_forall_ne_some.mpr fun record kept => droppedToo ⟨record, kept⟩]
      exact .none
    · obtain ⟨fields⟩ := exists_daemonFields.2 reads
      have read : readAlert platform line object = some ⟨eventId, _, _, _⟩ :=
        readAlert_eq_some.2 ⟨number, rfl, rfl, rfl⟩
      rw [alertContent_daemon.2 ⟨document, parsed, fields, rfl⟩,
        alertContent_app.2 ⟨object, parsedToo, _, read, rfl⟩]
      exact .some ((sameRecord_iff_fits digest fields read).mpr fits)

end Line

/-! A batch of lines. -/

section Batch

variable {library : EnvelopeLibrary} {platform : EnvelopePlatform} {source : AlertSource}
  {nowMs : Int} {rawLines : List String}

def DaemonReports (library : EnvelopeLibrary) (rawLines : List String) : Prop :=
  ∃ line ∈ rawLines, ∃ document, KeptByDaemon library line document

/-- Beside a line to report, the manager needs a topic and lines that org.json can write. -/
def AppReports (platform : EnvelopePlatform) (source : AlertSource) (rawLines : List String) :
    Prop :=
  (∃ line ∈ rawLines, ∃ object, KeptByApp platform line object) ∧
    nodeTypeToTopicSeg source.nodeType ≠ "unknown" ∧
    ∀ line ∈ rawLines, ∀ object, KeptByApp platform line object →
      (OrgValue.object object).finite = true

theorem daemon_empty_iff :
    Managerd.buildAlertEnvelope library source nowMs (rawLines.map utf8) = "" ↔
      ¬ DaemonReports library rawLines := by
  rw [Managerd.buildAlertEnvelope]
  have kept : (rawLines.map utf8).filterMap (Managerd.alertContent library source) = [] ↔
      ¬ DaemonReports library rawLines := by
    rw [List.filterMap_map, List.filterMap_eq_nil_iff, DaemonReports]
    simp only [← @exists_daemonRecord library source, Function.comp_apply,
      Option.eq_none_iff_forall_ne_some, ne_eq, not_exists, not_and]
  by_cases empty : (rawLines.map utf8).filterMap (Managerd.alertContent library source) = []
  · simp only [empty, if_true, ← kept]
  · rw [← kept]
    simp only [empty, if_false, iff_false]
    exact Managerd.dump_envelope_ne

private theorem finite_records_iff :
    (∀ record ∈ rawLines.filterMap (alertContent platform source),
        (OrgValue.object record).finite = true) ↔
      ∀ line ∈ rawLines, ∀ object, KeptByApp platform line object →
        (OrgValue.object object).finite = true := by
  have same : ∀ object a, (OrgValue.object (appRecord platform source object a)).finite =
      (OrgValue.object object).finite := by
    intro object a
    simp [OrgValue.finite, OrgValue.finiteMembers, appRecord]
  simp only [List.mem_filterMap]
  constructor
  · rintro each line member object ⟨parsed, eventId, number⟩
    have read : readAlert platform line object = some ⟨eventId, _, _, _⟩ :=
      readAlert_eq_some.2 ⟨number, rfl, rfl, rfl⟩
    rw [← same object]
    exact each _ ⟨line, member, alertContent_app.2 ⟨object, parsed, _, read, rfl⟩⟩
  · rintro each record ⟨line, member, kept⟩
    obtain ⟨object, parsed, a, read, rfl⟩ := alertContent_app.1 kept
    rw [same object]
    exact each line member object ⟨parsed, a.eventId, (readAlert_eq_some.1 read).1⟩

private theorem finite_envelope {msgType manufacturer : String} {now : Int64}
    {content : List (List (String × OrgValue))} :
    (OrgValue.object [("msg_type", .string msgType), ("protocol_version", .string "1.0"),
        ("timestamp", .long now), ("manufacturer", .string manufacturer),
        ("content", .array (content.map .object))]).finite = true ↔
      ∀ record ∈ content, (OrgValue.object record).finite = true := by
  simp [OrgValue.finite, OrgValue.finiteMembers, OrgValue.finiteItems_iff]

theorem app_null_iff
    (writes : ∀ value, (platform.java.write value).isSome = value.finite) :
    buildAlertEnvelope platform source nowMs rawLines = none ↔
      ¬ AppReports platform source rawLines := by
  rw [buildAlertEnvelope, AppReports]
  have kept : (rawLines.filterMap (alertContent platform source)).isEmpty = true ↔
      ¬ ∃ line ∈ rawLines, ∃ object, KeptByApp platform line object := by
    rw [List.isEmpty_iff, List.filterMap_eq_nil_iff]
    simp only [← @exists_appRecord platform source, Option.eq_none_iff_forall_ne_some, ne_eq,
      not_exists, not_and]
  by_cases empty : (rawLines.filterMap (alertContent platform source)).isEmpty = true
  · simp only [empty, if_true, true_iff]
    exact fun reports => kept.1 empty reports.1
  · rw [if_neg empty]
    by_cases unknown : nodeTypeToTopicSeg source.nodeType = "unknown"
    · simp [unknown]
    · have some := not_not.mp fun dropped => empty (kept.2 dropped)
      rw [if_neg unknown, ← Option.not_isSome_iff_eq_none, writes, finite_envelope,
        @finite_records_iff platform source, and_iff_right some, and_iff_right unknown]

/-- Both report that no line is valid, or both report the same lines with the same records. -/
def Agree (library : EnvelopeLibrary) (platform : EnvelopePlatform) (source : AlertSource)
    (nowMs nowMs' : Int) (rawLines : List String) : Prop :=
  let daemon := Managerd.buildAlertEnvelope library source nowMs (rawLines.map utf8)
  let app := buildAlertEnvelope platform source nowMs' rawLines
  (daemon = "" ∧ app = none) ∨
    (daemon ≠ "" ∧ app ≠ none ∧ ∀ line ∈ rawLines,
      Option.Rel SameRecord (Managerd.alertContent library source (utf8 line))
        (alertContent platform source line))

end Batch

section Sample

/-- Enough of Java for lines of texts and whole numbers. -/
def writingJava : Java where
  longOfText _ := none
  intOfText _ := none
  equalsIgnoreCase first second := first == second
  valueOf _ := ""
  write value := if value.finite then some "" else none
  writeIndented _ := none

/-- An alert of the host probe. -/
def eventText : String := "\x7b\"event_id\":32801\x7d"

/-- The same with a number as its severity. -/
def severityText : String := "\x7b\"event_id\":32801,\"severity\":3\x7d"

def envelopePlatform : EnvelopePlatform where
  java := writingJava
  ofText text :=
    if text = eventText then .ok [("event_id", .long 32801)]
    else if text = severityText then .ok [("event_id", .long 32801), ("severity", .long 3)]
    else .error "End of input"
  sha256 := Managerd.envelopeLibrarySample.sha256

def hostSource : AlertSource := ⟨"caic", "caic_t99_VIN", "HIDPS", "0x02", "v8"⟩

private def holdsEventId : Option Value → Bool
  | some (.object [(name, .unsigned id)]) => name == "event_id" && id == 32801
  | _ => false

private theorem parse_eventText :
    parseBytes Managerd.envelopeLibrarySample (utf8 eventText) =
      some (.object [("event_id", .unsigned 32801)]) := by
  have shape : holdsEventId (parseBytes Managerd.envelopeLibrarySample (utf8 eventText)) = true := by
    decide +kernel
  unfold holdsEventId at shape
  split at shape
  case h_1 name id parsed =>
    simp only [Bool.and_eq_true, beq_iff_eq] at shape
    rw [parsed, shape.1, shape.2]
  case h_2 => cases shape

private theorem ofText_eventText :
    envelopePlatform.ofText eventText = .ok [("event_id", .long 32801)] := by
  simp [envelopePlatform]

private theorem keptByDaemon_eventText :
    KeptByDaemon Managerd.envelopeLibrarySample eventText
      (.object [("event_id", .unsigned 32801)]) := by
  refine ⟨parse_eventText, rfl, ⟨.unsigned 32801, by simp [Value.member?], rfl⟩, ?_, ?_⟩
  · intro key listed value found
    simp only [List.mem_cons, List.not_mem_nil, or_false] at listed
    rcases listed with rfl | rfl <;> simp [Value.member?] at found
  · intro key listed value found
    simp only [List.mem_cons, List.not_mem_nil, or_false] at listed
    rcases listed with rfl | rfl <;> simp [Value.member?] at found

private theorem keptByApp_eventText :
    KeptByApp envelopePlatform eventText [("event_id", .long 32801)] :=
  ⟨ofText_eventText, 32801, rfl⟩

private theorem fits_eventText :
    Fits envelopePlatform (.object [("event_id", .unsigned 32801)])
      [("event_id", .long 32801)] where
  same := by
    refine .object fun key => ?_
    by_cases named : "event_id" = key
    · subst named
      simp only [Json.lookup_cons, Json.lookup_nil, Option.none_or, if_true]
      exact .some (.number rfl rfl)
    · simp only [Json.lookup_cons, Json.lookup_nil, Option.none_or, named, if_false,
        OrgValue.member?, List.reverse_singleton, List.find?_singleton, beq_iff_eq,
        Option.map_none]
      exact .none
  eventId id number found denoted := by
    rw [at_eq_ok, Json.lookup_cons, Json.lookup_nil, Option.none_or, if_pos rfl] at found
    obtain rfl : Value.unsigned 32801 = id := Option.some.inj found
    obtain rfl : (((32801 : Int) : ℚ)) = number := Option.some.inj denoted
    rw [Json.wholePart_intCast]
    decide
  time s ns sRead nsRead := by
    have absent : ∀ key, key ≠ "event_id" → ∀ whole : Int,
        (Value.object [("event_id", .unsigned 32801)]).valueOr key 0 Value.getLongLong =
          .ok whole → 0 = whole := by
      intro key other whole read
      rw [Value.valueOr, Json.lookup_cons, Json.lookup_nil, Option.none_or,
        if_neg (Ne.symm other)] at read
      exact Except.ok.inj read
    rw [← absent _ (by decide) s sRead, ← absent _ (by decide) ns nsRead]
    rfl

end Sample

end Idsm.Android.VsocEnvelope
