import Idsm.Foundation.Execution
import Idsm.IdsRm.JsonPayload
import Idsm.Json.RawTextProperties
import Idsm.Protocol.RoundTripProperties

/-! When a record says what the event was. The part before the context bytes is cut
where its buffer ends; a cut part never leads to a record with a payload. -/

set_option autoImplicit false

namespace Idsm.IdsRm

open Idsm.Foundation
open Idsm.Json (Value Reads ReadsMember Raw commaJoined memberPiece quote)
open Idsm.Managerd (EnvelopeLibrary envelopeLibrarySample parseAlertLine)
open Idsm.Protocol

/-- The record on a line says what the event was, and the daemon reads it so. -/
structure FaithfulRecord (library : EnvelopeLibrary) (qsev : OwnedQSEv) (line : String) : Prop where
  singleLine : '\n' ∉ line.toList
  object : ∃ members, Json.parse library.strtod line = some (.object members) ∧
    Json.lookup "ids_message" members = some (.string (toHex (serialized qsev))) ∧
    Json.lookup "payload" members = some (.string (toHex qsev.contextData)) ∧
    Json.lookup "payload_len" members =
      some (.unsigned (UInt64.ofNat qsev.contextData.length))
  alert : ∃ alert, parseAlertLine library (utf8 line) = .ok alert ∧
    alert.eventId.toNat = qsev.externalEventId.toNat ∧
    alert.severity = severityToString qsev.severity ∧
    alert.timestampMs =
      qsev.timestamp.seconds.toNat * 1000 + qsev.timestamp.nanoseconds.toNat / 1000000 ∧
    alert.idsMessageHex = toHex (serialized qsev)

/-! The texts in a record. -/

/-- The characters of hexadecimal texts. -/
def IsUpperHex (c : Char) : Prop := c ∈ "0123456789ABCDEF".toList

instance (c : Char) : Decidable (IsUpperHex c) := inferInstanceAs (Decidable (c ∈ _))

theorem isUpperHex_upperHexDigit (value : Nat) : IsUpperHex (upperHexDigit value) := by
  have digits : ∀ digit < 16, IsUpperHex (upperHexDigit digit) := by decide
  have reduced : upperHexDigit value = upperHexDigit (value % 16) := by
    rw [upperHexDigit, upperHexDigit, Nat.mod_mod]
  rw [reduced]
  exact digits _ (Nat.mod_lt _ (by decide))

theorem isUpperHex_of_mem_toHex {data : List UInt8} {c : Char} (member : c ∈ (toHex data).toList) :
    IsUpperHex c := by
  rw [toHex, String.toList_ofList] at member
  obtain ⟨byte, _, here⟩ := List.mem_flatMap.mp member
  rcases List.mem_pair.mp here with rfl | rfl <;> exact isUpperHex_upperHexDigit _

theorem length_toHex (data : List UInt8) : (toHex data).length = 2 * data.length := by
  rw [toHex, String.length_ofList]
  induction data with
  | nil => rfl
  | cons byte data ih =>
      rw [List.flatMap_cons, List.length_append, ih, List.length_cons]
      simp only [List.length_cons, List.length_nil]
      omega

/-- Literals of such characters show them as they are. -/
theorem quote_eq {text : String}
    (shown : ∀ c ∈ text.toList, Json.Plain c ∧ c ≠ '"' ∧ c ≠ '\\') :
    quote text = "\"" ++ text ++ "\"" := by
  have kept : text.toList.flatMap Json.escaped = text.toList := by
    rw [List.flatMap_congr fun c member => Json.escaped_of_plain (shown c member).1
      (shown c member).2.1 (shown c member).2.2]
    simp
  rw [quote, kept, String.ofList_toList]

theorem quote_toHex (data : List UInt8) : quote (toHex data) = "\"" ++ toHex data ++ "\"" := by
  have plain : ∀ c ∈ "0123456789ABCDEF".toList, 0x20 ≤ c.toNat ∧ c ≠ '"' ∧ c ≠ '\\' := by decide
  exact quote_eq fun c member => plain c (isUpperHex_of_mem_toHex member)

theorem quote_severity (severity : EventSeverity) :
    quote (severityToString severity) = "\"" ++ severityToString severity ++ "\"" := by
  cases severity <;> decide

theorem reads_unsignedText {strtod : List Char → Option Json.Binary64} {number : Nat}
    (small : number < 2 ^ 32) :
    Reads strtod (unsigned number) (.unsigned (UInt64.ofNat number)) := by
  have value : (UInt64.ofNat number).toNat = number := by
    rw [UInt64.toNat_ofNat']
    exact Nat.mod_eq_of_lt (by omega)
  have exact : Reads strtod (toString (UInt64.ofNat number).toNat) _ :=
    Json.reads_unsigned (UInt64.ofNat number)
  rw [value] at exact
  rw [unsigned, Nat.mod_eq_of_lt small]
  exact exact

/-! The whole record. -/

section Record

variable (qsev : OwnedQSEv)

/-- The members of a record with their texts. -/
def recordPieces : List (String × String) :=
  [("ids_message", quote (toHex (serialized qsev))),
    ("protocol_version", unsigned protocolVersion.toNat),
    ("has_context_data", if qsev.contextData = [] then "false" else "true"),
    ("has_timestamp", if qsev.hasTimestamp then "true" else "false"),
    ("idsm_instance_id", unsigned qsev.idsmInstanceId.toNat),
    ("sensor_instance_id", unsigned qsev.sensorInstanceId.toNat),
    ("event_id", unsigned qsev.externalEventId.toNat),
    ("count", unsigned qsev.count.toNat),
    ("severity", quote (severityToString qsev.severity)),
    ("timestamp_s", unsigned qsev.timestamp.seconds.toNat),
    ("timestamp_ns", unsigned qsev.timestamp.nanoseconds.toNat),
    ("context_data_version", unsigned qsev.contextDataVersion.toNat),
    ("payload", quote (toHex qsev.contextData)),
    ("payload_len", unsigned qsev.contextData.length)]

def recordMembers : List (String × Value) :=
  [("ids_message", .string (toHex (serialized qsev))),
    ("protocol_version", .unsigned (UInt64.ofNat protocolVersion.toNat)),
    ("has_context_data", .boolean (!qsev.contextData.isEmpty)),
    ("has_timestamp", .boolean qsev.hasTimestamp),
    ("idsm_instance_id", .unsigned (UInt64.ofNat qsev.idsmInstanceId.toNat)),
    ("sensor_instance_id", .unsigned (UInt64.ofNat qsev.sensorInstanceId.toNat)),
    ("event_id", .unsigned (UInt64.ofNat qsev.externalEventId.toNat)),
    ("count", .unsigned (UInt64.ofNat qsev.count.toNat)),
    ("severity", .string (severityToString qsev.severity)),
    ("timestamp_s", .unsigned (UInt64.ofNat qsev.timestamp.seconds.toNat)),
    ("timestamp_ns", .unsigned (UInt64.ofNat qsev.timestamp.nanoseconds.toNat)),
    ("context_data_version", .unsigned (UInt64.ofNat qsev.contextDataVersion.toNat)),
    ("payload", .string (toHex qsev.contextData)),
    ("payload_len", .unsigned (UInt64.ofNat qsev.contextData.length))]

/-- The record whose buffers cut nothing off. -/
def fullRecord : String :=
  headerText qsev (toHex (serialized qsev)) ++ toHex qsev.contextData ++ trailerText qsev

def recordKeys : List String :=
  ["ids_message", "protocol_version", "has_context_data", "has_timestamp", "idsm_instance_id",
    "sensor_instance_id", "event_id", "count", "severity", "timestamp_s", "timestamp_ns",
    "context_data_version", "payload", "payload_len"]

theorem memberPiece_recordKey {key : String} (listed : key ∈ recordKeys) (text : String) :
    memberPiece (key, text) = "\"" ++ (key ++ ("\":" ++ text)) := by
  have shown : ∀ key ∈ recordKeys, ∀ c ∈ key.toList, 0x20 ≤ c.toNat ∧ c ≠ '"' ∧ c ≠ '\\' := by
    decide
  have joint : "\":" = "\"" ++ ":" := by decide
  rw [memberPiece, quote_eq (shown key listed), joint]
  simp only [String.append_assoc]

/-- The pieces of the format strings. -/
private theorem formats :
    "\x7b\"ids_message\":\"" = "\x7b" ++ ("\"" ++ ("ids_message" ++ ("\":" ++ "\""))) ∧
    "\",\"protocol_version\":" = "\"" ++ ("," ++ ("\"" ++ ("protocol_version" ++ "\":"))) ∧
    ",\"has_context_data\":" = "," ++ ("\"" ++ ("has_context_data" ++ "\":")) ∧
    ",\"has_timestamp\":" = "," ++ ("\"" ++ ("has_timestamp" ++ "\":")) ∧
    ",\"idsm_instance_id\":" = "," ++ ("\"" ++ ("idsm_instance_id" ++ "\":")) ∧
    ",\"sensor_instance_id\":" = "," ++ ("\"" ++ ("sensor_instance_id" ++ "\":")) ∧
    ",\"event_id\":" = "," ++ ("\"" ++ ("event_id" ++ "\":")) ∧
    ",\"count\":" = "," ++ ("\"" ++ ("count" ++ "\":")) ∧
    ",\"severity\":\"" = "," ++ ("\"" ++ ("severity" ++ ("\":" ++ "\""))) ∧
    "\",\"timestamp_s\":" = "\"" ++ ("," ++ ("\"" ++ ("timestamp_s" ++ "\":"))) ∧
    ",\"timestamp_ns\":" = "," ++ ("\"" ++ ("timestamp_ns" ++ "\":")) ∧
    ",\"context_data_version\":" = "," ++ ("\"" ++ ("context_data_version" ++ "\":")) ∧
    ",\"payload\":\"" = "," ++ ("\"" ++ ("payload" ++ ("\":" ++ "\""))) ∧
    "\",\"payload_len\":" = "\"" ++ ("," ++ ("\"" ++ ("payload_len" ++ "\":"))) := by
  decide

theorem fullRecord_eq :
    fullRecord qsev = commaJoined "\x7b" ((recordPieces qsev).map memberPiece) ++ "\x7d" := by
  obtain ⟨f1, f2, f3, f4, f5, f6, f7, f8, f9, f10, f11, f12, f13, f14⟩ := formats
  have listed : ∀ key ∈ recordKeys, ∀ text, memberPiece (key, text) =
      "\"" ++ (key ++ ("\":" ++ text)) := fun _ => memberPiece_recordKey
  simp only [recordKeys, List.forall_mem_cons] at listed
  obtain ⟨k1, k2, k3, k4, k5, k6, k7, k8, k9, k10, k11, k12, k13, k14, -⟩ := listed
  unfold fullRecord headerText trailerText
  simp only [recordPieces, List.map_cons, List.map_nil, k1, k2, k3, k4, k5, k6, k7, k8, k9, k10,
    k11, k12, k13, k14, commaJoined, List.foldl_cons, List.foldl_nil, quote_toHex, quote_severity,
    f1, f2, f3, f4, f5, f6, f7, f8, f9, f10, f11, f12, f13, f14, String.append_assoc]

variable {qsev}

theorem reads_record {strtod : List Char → Option Json.Binary64}
    (short : qsev.contextData.length < 2 ^ 32) :
    Reads strtod (fullRecord qsev) (.object (recordMembers qsev)) := by
  have word : ∀ number : UInt16, number.toNat < 2 ^ 32 := fun number =>
    lt_trans number.toNat_lt (by decide)
  have byte : ∀ number : UInt8, number.toNat < 2 ^ 32 := fun number =>
    lt_trans number.toNat_lt (by decide)
  have flag : ∀ value : Bool, Reads strtod (if value then "true" else "false") (.boolean value) := by
    intro value
    cases value with
    | false => exact Json.reads_literals.2.1
    | true => exact Json.reads_literals.1
  have context : Reads strtod (if qsev.contextData = [] then "false" else "true")
      (.boolean (!qsev.contextData.isEmpty)) := by
    cases qsev.contextData with
    | nil => exact Json.reads_literals.2.1
    | cons byte rest => exact Json.reads_literals.1
  rw [fullRecord_eq]
  refine Json.reads_object ?_
  unfold recordPieces recordMembers
  exact .cons ⟨rfl, Json.reads_quote _⟩ <| .cons ⟨rfl, reads_unsignedText (byte _)⟩ <|
    .cons ⟨rfl, context⟩ <| .cons ⟨rfl, flag _⟩ <| .cons ⟨rfl, reads_unsignedText (word _)⟩ <|
    .cons ⟨rfl, reads_unsignedText (byte _)⟩ <| .cons ⟨rfl, reads_unsignedText (word _)⟩ <|
    .cons ⟨rfl, reads_unsignedText (word _)⟩ <| .cons ⟨rfl, Json.reads_quote _⟩ <|
    .cons ⟨rfl, reads_unsignedText qsev.timestamp.seconds.toNat_lt⟩ <|
    .cons ⟨rfl, reads_unsignedText qsev.timestamp.nanoseconds.toNat_lt⟩ <|
    .cons ⟨rfl, reads_unsignedText (word _)⟩ <| .cons ⟨rfl, Json.reads_quote _⟩ <|
    .cons ⟨rfl, reads_unsignedText short⟩ .nil

variable (qsev) in
theorem lookup_recordMembers :
    Json.lookup "ids_message" (recordMembers qsev) = some (.string (toHex (serialized qsev))) ∧
    Json.lookup "event_id" (recordMembers qsev) =
      some (.unsigned (UInt64.ofNat qsev.externalEventId.toNat)) ∧
    Json.lookup "severity" (recordMembers qsev) =
      some (.string (severityToString qsev.severity)) ∧
    Json.lookup "timestamp_s" (recordMembers qsev) =
      some (.unsigned (UInt64.ofNat qsev.timestamp.seconds.toNat)) ∧
    Json.lookup "timestamp_ns" (recordMembers qsev) =
      some (.unsigned (UInt64.ofNat qsev.timestamp.nanoseconds.toNat)) ∧
    Json.lookup "payload" (recordMembers qsev) = some (.string (toHex qsev.contextData)) ∧
    Json.lookup "payload_len" (recordMembers qsev) =
      some (.unsigned (UInt64.ofNat qsev.contextData.length)) := by
  unfold recordMembers
  simp only [Json.lookup_cons, Json.lookup_nil, String.reduceEq, if_false, if_true, Option.none_or,
    Option.or_none, and_self]

private theorem getLongLong_unsigned {number : Nat} (small : number < 2 ^ 32) :
    (Value.unsigned (UInt64.ofNat number)).getLongLong = .ok (number : Int) := by
  have value : (UInt64.ofNat number).toNat = number := by
    rw [UInt64.toNat_ofNat']
    exact Nat.mod_eq_of_lt (by omega)
  rw [Value.getLongLong, Value.getSigned, value, Int.bmod_eq_of_le (by omega) (by omega)]

/-- What the daemon makes of a record with these fields. -/
private theorem readAlert_eq {library : EnvelopeLibrary} {line : List UInt8} {members : List (String × Value)}
    {id s ns : Nat} {severity hex : String}
    (event : Json.lookup "event_id" members = some (.unsigned (UInt64.ofNat id)))
    (severe : Json.lookup "severity" members = some (.string severity))
    (seconds : Json.lookup "timestamp_s" members = some (.unsigned (UInt64.ofNat s)))
    (nanoseconds : Json.lookup "timestamp_ns" members = some (.unsigned (UInt64.ofNat ns)))
    (message : Json.lookup "ids_message" members = some (.string hex))
    (idBound : id < 2 ^ 32) (sBound : s < 2 ^ 32) (nsBound : ns < 2 ^ 32) (some : hex ≠ "") :
    Managerd.readAlert library line (.object members) =
      .ok ⟨UInt32.ofInt id, severity, s * 1000 + ns / 1000000, hex⟩ := by
  have ms : ((s : Int) * 1000 + (ns : Int).tdiv 1000000).bmod (2 ^ 64) = s * 1000 + ns / 1000000 := by
    rw [Int.tdiv_eq_ediv_of_nonneg (by omega), Int.bmod_eq_of_le (by omega) (by omega)]
  simp only [Managerd.readAlert, Value.at, event, bind, Except.bind, Managerd.getUInt32,
    getLongLong_unsigned idBound, Except.map, Value.valueOr, severe, seconds, nanoseconds, message,
    getLongLong_unsigned sBound, getLongLong_unsigned nsBound, Value.getString, pure, Except.pure,
    if_neg some, ms]

theorem parseAlertLine_record (library : EnvelopeLibrary)
    (short : qsev.contextData.length < 2 ^ 32) (message : serialized qsev ≠ []) :
    ∃ alert, parseAlertLine library (utf8 (fullRecord qsev)) = .ok alert ∧
      alert.eventId.toNat = qsev.externalEventId.toNat ∧
      alert.severity = severityToString qsev.severity ∧
      alert.timestampMs =
        qsev.timestamp.seconds.toNat * 1000 + qsev.timestamp.nanoseconds.toNat / 1000000 ∧
      alert.idsMessageHex = toHex (serialized qsev) := by
  obtain ⟨hex, event, severity, seconds, nanoseconds, _⟩ := lookup_recordMembers qsev
  have parsed : Managerd.parseBytes library (utf8 (fullRecord qsev)) =
      some (.object (recordMembers qsev)) := by
    rw [Managerd.parseBytes, Managerd.decodeUtf8_utf8, Option.bind_eq_bind, Option.bind_some]
    exact (reads_record short).parse_eq
  have nonempty : toHex (serialized qsev) ≠ "" := by
    intro empty
    have length := length_toHex (serialized qsev)
    rw [empty] at length
    cases content : serialized qsev with
    | nil => exact message content
    | cons byte rest =>
        rw [content, List.length_cons] at length
        simp at length
  have bound := qsev.externalEventId.toNat_lt
  have read : Managerd.readAlert library (utf8 (fullRecord qsev)) _ = .ok _ :=
    readAlert_eq event severity seconds nanoseconds hex (by omega)
      qsev.timestamp.seconds.toNat_lt qsev.timestamp.nanoseconds.toNat_lt nonempty
  refine ⟨⟨UInt32.ofInt qsev.externalEventId.toNat, severityToString qsev.severity,
    qsev.timestamp.seconds.toNat * 1000 + qsev.timestamp.nanoseconds.toNat / 1000000,
    toHex (serialized qsev)⟩, ?_, ?_, rfl, rfl, rfl⟩
  · rw [parseAlertLine, parsed]
    simp only [read, Except.mapError]
  · simp only [UInt32.ofInt, UInt32.toNat_ofNat']
    omega

end Record

/-! The lengths. -/

def decimalLength (number : Nat) : Nat := (toString number).length

/-- The length of the part before the context bytes. -/
def headerLength (qsev : OwnedQSEv) : Nat :=
  219 + 2 * messageSize qsev.toC + (if qsev.contextData = [] then 5 else 4) +
    (if qsev.hasTimestamp then 4 else 5) + decimalLength qsev.idsmInstanceId.toNat +
    decimalLength qsev.sensorInstanceId.toNat + decimalLength qsev.externalEventId.toNat +
    decimalLength qsev.count.toNat + (severityToString qsev.severity).length +
    decimalLength qsev.timestamp.seconds.toNat + decimalLength qsev.timestamp.nanoseconds.toNat +
    decimalLength qsev.contextDataVersion.toNat

theorem serialized_eq {qsev : OwnedQSEv} (fits : messageSize qsev.toC ≤ 65535) :
    serialized qsev = messageBytes qsev.toC := by
  have size := toNat_getMessageSize qsev.toC
  have positive := eight_le_messageSize qsev.toC
  rw [Nat.mod_eq_of_lt (by omega)] at size
  have nonzero : getMessageSize (some qsev.toC) ≠ 0 := by
    intro zero
    rw [zero, UInt16.toNat_zero] at size
    omega
  obtain ⟨offset, stored⟩ := storedIn_serializeQSEv fits (le_of_eq size.symm)
    List.length_replicate
  unfold serialized buildWireMessage
  simp only [if_neg nonzero]
  rw [offset, stored, List.take_left' (length_messageBytes qsev.toC)]

private theorem length_unsigned {number : Nat} (small : number < 2 ^ 32) :
    (unsigned number).length = decimalLength number := by
  rw [unsigned, Nat.mod_eq_of_lt small, decimalLength]

theorem length_headerText {qsev : OwnedQSEv} (fits : messageSize qsev.toC ≤ 65535) :
    (headerText qsev (toHex (serialized qsev))).length = headerLength qsev := by
  have word : ∀ number : UInt16, (unsigned number.toNat).length = decimalLength number.toNat :=
    fun number => length_unsigned (lt_trans number.toNat_lt (by decide))
  have byte : ∀ number : UInt8, (unsigned number.toNat).length = decimalLength number.toNat :=
    fun number => length_unsigned (lt_trans number.toNat_lt (by decide))
  have protocol : decimalLength protocolVersion.toNat = 1 := by decide
  have message : (toHex (serialized qsev)).length = 2 * messageSize qsev.toC := by
    rw [length_toHex, serialized_eq fits, length_messageBytes]
  have context : (if qsev.contextData = [] then "false" else "true").length =
      if qsev.contextData = [] then 5 else 4 := by
    split <;> rfl
  have stamped : (if qsev.hasTimestamp then "true" else "false").length =
      if qsev.hasTimestamp then 4 else 5 := by
    split <;> rfl
  have literals : "\x7b\"ids_message\":\"".length = 16 ∧ "\",\"protocol_version\":".length = 21 ∧
      ",\"has_context_data\":".length = 20 ∧ ",\"has_timestamp\":".length = 17 ∧
      ",\"idsm_instance_id\":".length = 20 ∧ ",\"sensor_instance_id\":".length = 22 ∧
      ",\"event_id\":".length = 12 ∧ ",\"count\":".length = 9 ∧ ",\"severity\":\"".length = 13 ∧
      "\",\"timestamp_s\":".length = 16 ∧ ",\"timestamp_ns\":".length = 16 ∧
      ",\"context_data_version\":".length = 24 ∧ ",\"payload\":\"".length = 12 := by
    decide
  obtain ⟨l1, l2, l3, l4, l5, l6, l7, l8, l9, l10, l11, l12, l13⟩ := literals
  unfold headerText headerLength
  simp only [String.length_append, l1, l2, l3, l4, l5, l6, l7, l8, l9, l10, l11, l12, l13, word,
    byte, protocol, message, context, stamped, length_unsigned qsev.timestamp.seconds.toNat_lt,
    length_unsigned qsev.timestamp.nanoseconds.toNat_lt]
  omega

theorem length_decimal_le {number digits : Nat} (positive : 0 < digits)
    (small : number < 10 ^ digits) : decimalLength number ≤ digits := by
  rw [decimalLength, ← String.length_toList, Json.toList_toString]
  exact (Nat.length_toDigits_le_iff (by decide) positive).mpr small

/-- Without a context the part before it never reaches its bound. -/
theorem headerLength_le_of_empty {qsev : OwnedQSEv} (empty : qsev.contextData = []) :
    headerLength qsev ≤ 511 := by
  have word : ∀ number : UInt16, decimalLength number.toNat ≤ 5 := fun number =>
    length_decimal_le (by decide) (lt_trans number.toNat_lt (by decide))
  have byte : ∀ number : UInt8, decimalLength number.toNat ≤ 3 := fun number =>
    length_decimal_le (by decide) (lt_trans number.toNat_lt (by decide))
  have long : ∀ number : UInt32, decimalLength number.toNat ≤ 10 := fun number =>
    length_decimal_le (by decide) (lt_trans number.toNat_lt (by decide))
  have severity : (severityToString qsev.severity).length ≤ 8 := by
    cases qsev.severity <;> decide
  have without : qsev.toC.hasContext = false := by
    simp [QualifiedSecurityEvent.hasContext, OwnedQSEv.toC, empty]
  have size : messageSize qsev.toC ≤ 16 := by
    rw [messageSize, without]
    split <;> simp
  have i := word qsev.idsmInstanceId
  have e := word qsev.externalEventId
  have c := word qsev.count
  have v := word qsev.contextDataVersion
  have n := byte qsev.sensorInstanceId
  have s := long qsev.timestamp.seconds
  have ns := long qsev.timestamp.nanoseconds
  rw [headerLength]
  split <;> split <;> omega

/-! The characters. -/

/-- No white space, no escape. -/
def Visible (text : String) : Prop :=
  ∀ c ∈ text.toList, 0x20 < c.toNat ∧ c ≠ '\\'

instance (text : String) : Decidable (Visible text) :=
  inferInstanceAs (Decidable (∀ c ∈ text.toList, _))

theorem visible_append {first second : String} :
    Visible (first ++ second) ↔ Visible first ∧ Visible second := by
  simp only [Visible, String.toList_append, List.forall_mem_append]

theorem visible_toHex (data : List UInt8) : Visible (toHex data) := by
  have digits : ∀ c ∈ "0123456789ABCDEF".toList, 0x20 < c.toNat ∧ c ≠ '\\' := by decide
  exact fun c member => digits c (isUpperHex_of_mem_toHex member)

theorem isDigit_of_mem_unsigned {number : Nat} {c : Char} (member : c ∈ (unsigned number).toList) :
    c.isDigit = true := by
  rw [unsigned, Json.toList_toString] at member
  exact Nat.isDigit_of_mem_toDigits (by decide) (by decide) member

theorem visible_unsigned (number : Nat) : Visible (unsigned number) := by
  intro c member
  have bounds := digit_bounds (isDigit_of_mem_unsigned member)
  refine ⟨by omega, ?_⟩
  rintro rfl
  exact absurd bounds (by decide)

theorem visible_headerText (qsev : OwnedQSEv) (data : List UInt8) :
    Visible (headerText qsev (toHex data)) := by
  have literals : ∀ text ∈ ["\x7b\"ids_message\":\"", "\",\"protocol_version\":",
      ",\"has_context_data\":", ",\"has_timestamp\":", ",\"idsm_instance_id\":",
      ",\"sensor_instance_id\":", ",\"event_id\":", ",\"count\":", ",\"severity\":\"",
      "\",\"timestamp_s\":", ",\"timestamp_ns\":", ",\"context_data_version\":",
      ",\"payload\":\"", "true", "false", "LOW", "MEDIUM", "HIGH", "CRITICAL"], Visible text := by
    decide
  simp only [List.forall_mem_cons] at literals
  obtain ⟨l1, l2, l3, l4, l5, l6, l7, l8, l9, l10, l11, l12, l13, yes, no, low, medium, high,
    critical, -⟩ := literals
  have context : Visible (if qsev.contextData = [] then "false" else "true") := by
    split
    · exact no
    · exact yes
  have stamped : Visible (if qsev.hasTimestamp then "true" else "false") := by
    split
    · exact yes
    · exact no
  have severity : Visible (severityToString qsev.severity) := by
    cases qsev.severity with
    | low => exact low
    | medium => exact medium
    | high => exact high
    | critical => exact critical
  unfold headerText
  simp only [visible_append, l1, l2, l3, l4, l5, l6, l7, l8, l9, l10, l11, l12, l13, context,
    stamped, severity, visible_toHex, visible_unsigned, and_self]

theorem visible_trailerText (qsev : OwnedQSEv) : Visible (trailerText qsev) := by
  have literals : Visible "\",\"payload_len\":" ∧ Visible "\x7d" := by decide
  unfold trailerText
  simp only [visible_append, literals, visible_unsigned, and_self]

theorem Visible.raw {text : String} (visible : Visible text) : Raw text.toList := by
  intro c member
  have dark := visible c member
  refine ⟨?_, dark.2⟩
  have named : ∀ symbol : Char, symbol.toNat ≤ 0x20 → c ≠ symbol := by
    rintro symbol low rfl
    omega
  simp [Json.isWhitespace, named ' ' (by decide), named '\t' (by decide), named '\n' (by decide),
    named '\r' (by decide)]

theorem Visible.newline_notMem {text : String} (visible : Visible text) : '\n' ∉ text.toList :=
  fun member => absurd (visible _ member).1 (by decide)

theorem Visible.take {text : String} (visible : Visible text) (count : Nat) :
    Visible (String.ofList (text.toList.take count)) := by
  intro c member
  rw [String.toList_ofList] at member
  exact visible c (List.mem_of_mem_take member)

/-! The buffers. -/

theorem snprintf_eq {size : Nat} {text : String} (fits : text.length < size) :
    snprintf size text = text := by
  rw [snprintf, List.take_of_length_le (by rw [String.length_toList]; omega), String.ofList_toList]

theorem length_trailerText {qsev : OwnedQSEv} (short : qsev.contextData.length ≤ 65535) :
    (trailerText qsev).length < 64 := by
  have literals : "\",\"payload_len\":".length = 16 ∧ "\x7d".length = 1 := by decide
  have digits : decimalLength qsev.contextData.length ≤ 5 :=
    length_decimal_le (by decide) (by omega)
  have number : (unsigned qsev.contextData.length).length = decimalLength qsev.contextData.length :=
    length_unsigned (by omega)
  unfold trailerText
  simp only [String.length_append, literals, number]
  omega

/-- The trailer always fits. -/
theorem buildJsonPayload_eq {qsev : OwnedQSEv} (short : qsev.contextData.length ≤ 65535) :
    buildJsonPayload qsev = snprintf 512 (headerText qsev (toHex (serialized qsev))) ++
      toHex qsev.contextData ++ trailerText qsev := by
  unfold buildJsonPayload
  simp only [snprintf_eq (length_trailerText short)]

/-- A header that fits its buffer makes a faithful record. -/
theorem faithfulRecord_of_fits (library : EnvelopeLibrary) {qsev : OwnedQSEv}
    (short : qsev.contextData.length ≤ 65535) (fits : messageSize qsev.toC ≤ 65535)
    (header : headerLength qsev ≤ 511) :
    FaithfulRecord library qsev (buildJsonPayload qsev) := by
  have whole : buildJsonPayload qsev = fullRecord qsev := by
    rw [buildJsonPayload_eq short,
      snprintf_eq (show _ < 512 by rw [length_headerText fits]; omega), fullRecord]
  have message : serialized qsev ≠ [] := by
    intro empty
    have length := length_messageBytes qsev.toC
    rw [← serialized_eq fits, empty, List.length_nil] at length
    have positive := eight_le_messageSize qsev.toC
    omega
  obtain ⟨hex, _, _, _, _, payload, size⟩ := lookup_recordMembers qsev
  rw [whole]
  refine ⟨Visible.newline_notMem ?_, ⟨_, (reads_record (by omega)).parse_eq, hex, payload, size⟩,
    parseAlertLine_record library (by omega) message⟩
  rw [fullRecord, visible_append, visible_append]
  exact ⟨⟨visible_headerText qsev _, visible_toHex _⟩, visible_trailerText qsev⟩

/-! A cut header. -/

section Cut

variable (qsev : OwnedQSEv)

/-- What stands between the quotation marks of the header. -/
def headerPieces (msgHex : String) : List String :=
  ["\x7b", "ids_message", ":", msgHex, ",", "protocol_version",
    ":" ++ (unsigned protocolVersion.toNat ++ ","), "has_context_data",
    ":" ++ ((if qsev.contextData = [] then "false" else "true") ++ ","), "has_timestamp",
    ":" ++ ((if qsev.hasTimestamp then "true" else "false") ++ ","), "idsm_instance_id",
    ":" ++ (unsigned qsev.idsmInstanceId.toNat ++ ","), "sensor_instance_id",
    ":" ++ (unsigned qsev.sensorInstanceId.toNat ++ ","), "event_id",
    ":" ++ (unsigned qsev.externalEventId.toNat ++ ","), "count",
    ":" ++ (unsigned qsev.count.toNat ++ ","), "severity", ":", severityToString qsev.severity, ",",
    "timestamp_s", ":" ++ (unsigned qsev.timestamp.seconds.toNat ++ ","), "timestamp_ns",
    ":" ++ (unsigned qsev.timestamp.nanoseconds.toNat ++ ","), "context_data_version",
    ":" ++ (unsigned qsev.contextDataVersion.toNat ++ ",")]

/-- Pieces, each closed by a quotation mark. -/
def marked (pieces : List String) : String :=
  pieces.foldr (fun piece rest => piece ++ ("\"" ++ rest)) ""

theorem toList_marked (pieces : List String) :
    (marked pieces).toList = terminated '"' (pieces.map String.toList) := by
  have mark : "\"".toList = ['"'] := by decide
  induction pieces with
  | nil => rfl
  | cons piece rest ih =>
      have step : marked (piece :: rest) = piece ++ ("\"" ++ marked rest) := rfl
      rw [step, String.toList_append, String.toList_append, ih, mark, List.map_cons, terminated_cons]
      rfl

theorem headerText_eq (msgHex : String) :
    headerText qsev msgHex = marked (headerPieces qsev msgHex ++ ["payload", ":"]) := by
  obtain ⟨f1, f2, f3, f4, f5, f6, f7, f8, f9, f10, f11, f12, f13, -⟩ := formats
  have joint : "\":" = "\"" ++ ":" := by decide
  unfold headerText headerPieces marked
  simp only [f1, f2, f3, f4, f5, f6, f7, f8, f9, f10, f11, f12, f13, joint, List.cons_append,
    List.nil_append, List.foldr_cons, List.foldr_nil, String.append_assoc, String.append_empty]

/-- No quotation mark. -/
def Unmarked (text : String) : Prop := '"' ∉ text.toList

theorem unmarked_append {first second : String} :
    Unmarked (first ++ second) ↔ Unmarked first ∧ Unmarked second := by
  simp only [Unmarked, String.toList_append, List.mem_append, not_or]

theorem unmarked_toHex (data : List UInt8) : Unmarked (toHex data) := fun member =>
  absurd (isUpperHex_of_mem_toHex member) (by decide)

theorem unmarked_unsigned (number : Nat) : Unmarked (unsigned number) := fun member =>
  absurd (isDigit_of_mem_unsigned member) (by decide)

theorem unmarked_headerPieces (data : List UInt8) :
    ∀ piece ∈ headerPieces qsev (toHex data) ++ ["payload", ":"], Unmarked piece := by
  have literals : ∀ text ∈ ["\x7b", "ids_message", ":", ",", "protocol_version", "has_context_data",
      "has_timestamp", "idsm_instance_id", "sensor_instance_id", "event_id", "count", "severity",
      "timestamp_s", "timestamp_ns", "context_data_version", "payload", "true", "false", "LOW",
      "MEDIUM", "HIGH", "CRITICAL"], Unmarked text := by
    have shown : ∀ text ∈ ["\x7b", "ids_message", ":", ",", "protocol_version", "has_context_data",
        "has_timestamp", "idsm_instance_id", "sensor_instance_id", "event_id", "count", "severity",
        "timestamp_s", "timestamp_ns", "context_data_version", "payload", "true", "false", "LOW",
        "MEDIUM", "HIGH", "CRITICAL"], '"' ∉ text.toList := by
      decide +kernel
    exact shown
  simp only [List.forall_mem_cons] at literals
  obtain ⟨l1, l2, l3, l4, l5, l6, l7, l8, l9, l10, l11, l12, l13, l14, l15, l16, yes, no, low, medium,
    high, critical, -⟩ := literals
  have context : Unmarked (if qsev.contextData = [] then "false" else "true") := by
    split
    · exact no
    · exact yes
  have stamped : Unmarked (if qsev.hasTimestamp then "true" else "false") := by
    split
    · exact yes
    · exact no
  have severity : Unmarked (severityToString qsev.severity) := by
    cases qsev.severity with
    | low => exact low
    | medium => exact medium
    | high => exact high
    | critical => exact critical
  simp only [headerPieces, List.cons_append, List.nil_append, List.forall_mem_cons,
    unmarked_append, l1, l2, l3, l4, l5, l6, l7, l8, l9, l10, l11, l12, l13, l14, l15, l16, context,
    stamped, severity, unmarked_toHex, unmarked_unsigned, and_self, List.not_mem_nil,
    false_implies, implies_true]

theorem toHex_ne_payload (data : List UInt8) : toHex data ≠ "payload" := by
  intro same
  have shown : 'p' ∈ (toHex data).toList := by
    rw [same]
    decide
  exact absurd (isUpperHex_of_mem_toHex shown) (by decide)

/-- The name of the payload stands once between the marks. -/
theorem payload_notMem_headerPieces (data : List UInt8) :
    "payload" ∉ headerPieces qsev (toHex data) := by
  have severity : severityToString qsev.severity ≠ "payload" := by
    cases qsev.severity <;> decide
  have value : ∀ text : String, ":" ++ text ≠ "payload" := by
    intro text same
    have first := congrArg (fun text => text.toList.head?) same
    have colon : ":".toList = [':'] := by decide
    rw [String.toList_append, colon] at first
    exact absurd first (by simp)
  have literals : ∀ text ∈ ["\x7b", "ids_message", ":", ",", "protocol_version", "has_context_data",
      "has_timestamp", "idsm_instance_id", "sensor_instance_id", "event_id", "count", "severity",
      "timestamp_s", "timestamp_ns", "context_data_version"], "payload" ≠ text := by
    decide
  simp only [List.forall_mem_cons] at literals
  obtain ⟨l1, l2, l3, l4, l5, l6, l7, l8, l9, l10, l11, l12, l13, l14, l15, -⟩ := literals
  simp only [headerPieces, List.mem_cons, l1, l2, l3, l4, l5, l6, l7, l8, l9, l10, l11, l12, l13, l14,
    l15, (value _).symm, (toHex_ne_payload data).symm, severity.symm, List.not_mem_nil, or_self,
    not_false_eq_true]

end Cut

/-- The marked name of the payload with what follows it in a record. -/
def payloadMark : List Char := '"' :: ("payload".toList ++ ['"', ':', '"'])

/-- Pieces with one name of the payload show nothing behind it. -/
theorem behind_payload {pieces : List String} {front rest : List Char}
    (unmarked : ∀ piece ∈ pieces ++ ["payload", ":"], Unmarked piece) (once : "payload" ∉ pieces)
    (same : (marked (pieces ++ ["payload", ":"])).toList = front ++ (payloadMark ++ rest)) :
    rest = [] := by
  have clean : ∀ line ∈ (pieces ++ ["payload", ":"]).map String.toList, '"' ∉ line := by
    intro line member
    obtain ⟨piece, listed, rfl⟩ := List.mem_map.mp member
    exact unmarked piece listed
  have shape : terminated '"' ((pieces ++ ["payload", ":"]).map String.toList) ++ [] =
      front ++ '"' :: ("payload".toList ++ '"' :: (':' :: '"' :: rest)) := by
    rw [← toList_marked, same, payloadMark]
    simp
  obtain ⟨before, after, lines, behind⟩ :=
    line_between_marks clean List.not_mem_nil (by decide) shape
  have last : after = [":".toList] := by
    rw [List.map_append, List.append_eq_append_iff] at lines
    rcases lines with ⟨middle, _, later⟩ | ⟨middle, earlier, later⟩
    · cases middle with
      | nil => exact (List.cons.inj later).2.symm
      | cons first middle =>
          have second := (List.cons.inj later).2
          cases middle with
          | nil => exact absurd (List.cons.inj second).1 (by decide)
          | cons third middle => exact absurd (List.cons.inj second).2 (by simp)
    · cases middle with
      | nil => exact (List.cons.inj later).2
      | cons first middle =>
          have named : "payload".toList ∈ pieces.map String.toList := by
            rw [earlier, (List.cons.inj later).1]
            simp
          obtain ⟨piece, listed, equal⟩ := List.mem_map.mp named
          rw [String.toList_inj.mp equal] at listed
          exact absurd listed once
  have colon : ":".toList = [':'] := by decide
  rw [last, colon] at behind
  simpa using behind

/-- A header cut within its last bytes leaves no marked name of the payload on the line. -/
theorem payloadMark_not_shown {pieces : List String} {count : Nat} {data : List UInt8} {last : String}
    (unmarked : ∀ piece ∈ pieces ++ ["payload", ":"], Unmarked piece) (once : "payload" ∉ pieces)
    (cut : count < (marked (pieces ++ ["payload", ":"])).length) (context : data ≠ [])
    (ended : Unmarked last) :
    ¬ payloadMark <:+: (marked (pieces ++ ["payload", ":"])).toList.take count ++
      ((toHex data).toList ++ (marked ["", ",", "payload_len"] ++ last).toList) := by
  rintro ⟨front, rest, same⟩
  have whole := List.take_append_drop count (marked (pieces ++ ["payload", ":"])).toList
  have dropped : (marked (pieces ++ ["payload", ":"])).toList.drop count ≠ [] := by
    intro empty
    have length := congrArg List.length empty
    rw [List.length_drop, String.length_toList, List.length_nil] at length
    omega
  have inside : ∀ before, (marked (pieces ++ ["payload", ":"])).toList.take count ≠
      front ++ (payloadMark ++ before) := by
    intro before within
    rw [within, List.append_assoc, List.append_assoc] at whole
    exact dropped (List.append_eq_nil_iff.mp (behind_payload unmarked once whole.symm)).2
  rw [List.append_assoc, List.append_eq_append_iff] at same
  rcases same with ⟨offset, header, later⟩ | ⟨offset, _, later⟩
  · rw [List.append_eq_append_iff] at later
    rcases later with ⟨middle, straddled, _⟩ | ⟨middle, straddled, behind⟩
    · exact inside middle (by rw [header, straddled])
    · cases middle with
      | nil => exact inside [] (by rw [header, straddled, List.append_nil, List.append_nil])
      | cons first middle =>
          -- the mark would go on with the first digit of the context
          have digits : ∀ c ∈ payloadMark, ¬ IsUpperHex c := by decide
          have marked : first ∈ payloadMark := by
            rw [straddled]
            simp
          cases shown : (toHex data).toList with
          | nil =>
              have length := length_toHex data
              rw [← String.length_toList, shown, List.length_nil] at length
              exact context (List.length_eq_zero_iff.mp (by omega))
          | cons digit digits' =>
              rw [shown] at behind
              have listed : digit ∈ (toHex data).toList := by
                rw [shown]
                simp
              have upper : IsUpperHex digit := isUpperHex_of_mem_toHex listed
              rw [(List.cons.inj behind).1] at upper
              exact digits first marked upper
  · have clean : ∀ line ∈ [(toHex data).toList, ",".toList, "payload_len".toList], '"' ∉ line := by
      have literals : '"' ∉ ",".toList ∧ '"' ∉ "payload_len".toList := by decide
      intro line member
      simp only [List.mem_cons, List.not_mem_nil, or_false] at member
      rcases member with rfl | rfl | rfl
      · exact unmarked_toHex data
      · exact literals.1
      · exact literals.2
    have shape : terminated '"' [(toHex data).toList, ",".toList, "payload_len".toList] ++
        last.toList = offset ++ '"' :: ("payload".toList ++ '"' :: (':' :: '"' :: rest)) := by
      rw [String.toList_append, toList_marked] at later
      simp only [payloadMark, List.cons_append, List.append_assoc, List.nil_append] at later
      rw [← later]
      simp
    obtain ⟨before, after, lines, _⟩ := line_between_marks clean ended (by decide) shape
    have member : "payload".toList ∈
        [(toHex data).toList, ",".toList, "payload_len".toList] := by
      rw [lines]
      simp
    simp only [List.mem_cons, List.not_mem_nil, or_false, String.toList_inj] at member
    rcases member with hex | literal
    · exact toHex_ne_payload data hex.symm
    · exact absurd literal (by decide)

theorem trailerText_eq (qsev : OwnedQSEv) :
    trailerText qsev = marked ["", ",", "payload_len"] ++
      (":" ++ (unsigned qsev.contextData.length ++ "\x7d")) := by
  obtain ⟨-, -, -, -, -, -, -, -, -, -, -, -, -, f14⟩ := formats
  have joint : "\":" = "\"" ++ ":" := by decide
  unfold trailerText marked
  simp only [f14, joint, List.foldr_cons, List.foldr_nil, String.append_assoc, String.append_empty,
    String.empty_append]

/-- A header past its buffer never makes a faithful record. -/
theorem not_faithfulRecord_of_cut {library : EnvelopeLibrary} {qsev : OwnedQSEv}
    (short : qsev.contextData.length ≤ 65535) (fits : messageSize qsev.toC ≤ 65535)
    (cut : 511 < headerLength qsev) :
    ¬ FaithfulRecord library qsev (buildJsonPayload qsev) := by
  rintro ⟨_, ⟨members, parsed, _, payload, _⟩, _⟩
  have context : qsev.contextData ≠ [] := fun empty => by
    have bound := headerLength_le_of_empty empty
    omega
  have line := buildJsonPayload_eq short
  have visible : Visible (buildJsonPayload qsev) := by
    rw [line, visible_append, visible_append, snprintf]
    exact ⟨⟨(visible_headerText qsev _).take 511, visible_toHex _⟩, visible_trailerText qsev⟩
  have opened : Json.skipBom (buildJsonPayload qsev).toList = (buildJsonPayload qsev).toList := by
    have brace : "\x7b".toList = ['\x7b'] := by decide
    have shape : ∃ rest, (headerText qsev (toHex (serialized qsev))).toList = '\x7b' :: rest := by
      rw [headerText_eq, toList_marked, headerPieces, List.cons_append, List.map_cons,
        terminated_cons, brace]
      exact ⟨_, rfl⟩
    obtain ⟨rest, start⟩ := shape
    rw [line, String.toList_append, String.toList_append, snprintf, String.toList_ofList, start]
    rfl
  have shown : payloadMark <:+: (buildJsonPayload qsev).toList :=
    Json.parse_shows visible.raw opened parsed (OrderedMap.mem_of_find?_ofList payload)
  rw [line, String.toList_append, String.toList_append, snprintf, String.toList_ofList,
    headerText_eq, trailerText_eq, List.append_assoc] at shown
  have header := length_headerText fits
  rw [headerText_eq] at header
  have literals : '"' ∉ ":".toList ∧ '"' ∉ "\x7d".toList := by decide
  have ended : Unmarked (":" ++ (unsigned qsev.contextData.length ++ "\x7d")) :=
    unmarked_append.2 ⟨literals.1, unmarked_append.2 ⟨unmarked_unsigned _, literals.2⟩⟩
  rw [← header] at cut
  rw [show 512 - 1 = 511 from rfl] at shown
  exact payloadMark_not_shown (unmarked_headerPieces qsev (serialized qsev))
    (payload_notMem_headerPieces qsev (serialized qsev)) cut context ended shown

/-- The record of an event is faithful exactly when the part before its context bytes
fits its buffer. -/
theorem buildJsonPayload_faithful_iff (library : EnvelopeLibrary) (qsev : OwnedQSEv)
    (short : qsev.contextData.length ≤ 65535) (fits : messageSize qsev.toC ≤ 65535) :
    FaithfulRecord library qsev (buildJsonPayload qsev) ↔ headerLength qsev ≤ 511 := by
  constructor
  · intro faithful
    by_contra cut
    exact not_faithfulRecord_of_cut short fits (by omega) faithful
  · exact faithfulRecord_of_fits library short fits

def sampleEvent (context : List UInt8) : OwnedQSEv where
  idsmInstanceId := 1
  externalEventId := 30000
  sensorInstanceId := 2
  severity := .high
  count := 1
  hasTimestamp := false
  timestamp := ⟨0, 0, .autosar⟩
  contextDataVersion := 0
  contextData := context

theorem buildJsonPayload_faithful_sample :
    FaithfulRecord envelopeLibrarySample (sampleEvent [0xAB, 0xCD])
      (buildJsonPayload (sampleEvent [0xAB, 0xCD])) :=
  (buildJsonPayload_faithful_iff envelopeLibrarySample (sampleEvent [0xAB, 0xCD]) (by decide)
    (by decide)).mpr (by decide)

/-- A context of 150 bytes is enough to lose the payload, and with it the whole record. -/
theorem buildJsonPayload_cut_instance :
    (sampleEvent (List.replicate 150 0x41)).contextData.length ≤ 65535 ∧
    messageSize (sampleEvent (List.replicate 150 0x41)).toC ≤ 65535 ∧
    ¬ FaithfulRecord envelopeLibrarySample (sampleEvent (List.replicate 150 0x41))
      (buildJsonPayload (sampleEvent (List.replicate 150 0x41))) :=
  have fits : messageSize (sampleEvent (List.replicate 150 0x41)).toC ≤ 65535 := by decide +kernel
  ⟨by decide +kernel, fits, not_faithfulRecord_of_cut (by decide +kernel) fits (by decide +kernel)⟩

end Idsm.IdsRm
