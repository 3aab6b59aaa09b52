import Idsm.Json.ParseProperties
import Idsm.Managerd.ConfigLandingProperties
import Idsm.Managerd.Reporting
import Idsm.Managerd.RuleAdmissionProperties
import Idsm.Managerd.StopProperties

/-! When a refusal is reported. Every message of the two managers is a text but the
parser's, which repeats bytes of the payload. -/

set_option autoImplicit false

namespace Idsm.Managerd

open Idsm.Foundation
open Idsm.Json (Value)

/-! The bytes in the parser's message. -/

private theorem isUTF8FirstByte_of_control {byte : UInt8} (control : byte ≤ 0x1F) :
    byte.IsUTF8FirstByte := by
  obtain ⟨first, more, encoded, leading, _⟩ := utf8EncodeChar_eq (Char.ofUInt8 byte)
  rw [utf8EncodeChar_control control] at encoded
  rw [(List.cons.inj encoded).1]
  exact leading

private theorem isUtf8_control {byte : UInt8} (control : byte ≤ 0x1F) : IsUtf8 [byte] :=
  isUtf8_iff_chars.2 ⟨[Char.ofUInt8 byte], by simp [utf8EncodeChar_control control]⟩

/-- The following bytes of a character stand in a shown text as they are. -/
private theorem strip_following {more bytes rest : List UInt8}
    (following : ∀ byte ∈ more, ¬ byte.IsUTF8FirstByte)
    (shown : bytes.flatMap shownByte = more ++ rest) :
    ∃ later, bytes = more ++ later ∧ later.flatMap shownByte = rest := by
  induction more generalizing bytes with
  | nil => exact ⟨bytes, rfl, shown⟩
  | cons first more ih =>
      cases bytes with
      | nil => cases shown
      | cons byte bytes =>
          rw [List.flatMap_cons, shownByte] at shown
          split at shown
          next =>
            have bracket : ∀ text : String, utf8 ("<U+" ++ text ++ ">") =
                60 :: (utf8 "U+" ++ utf8 text ++ utf8 ">") := by
              intro text
              have opening : utf8 "<U+" = 60 :: utf8 "U+" := by decide
              rw [utf8_append, utf8_append, opening]
              rfl
            rw [bracket] at shown
            have leading : (60 : UInt8).IsUTF8FirstByte := by decide
            rw [(List.cons.inj shown).1] at leading
            exact absurd leading (following first List.mem_cons_self)
          next =>
            obtain ⟨rfl, behind⟩ := List.cons.inj shown
            obtain ⟨later, rfl, ended⟩ :=
              ih (fun other member => following other (List.mem_cons_of_mem _ member)) behind
            exact ⟨later, rfl, ended⟩

private theorem isUtf8_of_shown (bytes : List UInt8) (text : IsUtf8 (bytes.flatMap shownByte)) :
    IsUtf8 bytes := by
  induction bound : bytes.length using Nat.strong_induction_on generalizing bytes with
  | _ length ih =>
      cases bytes with
      | nil => exact isUtf8_utf8 ""
      | cons byte rest =>
          rw [List.length_cons] at bound
          rw [List.flatMap_cons, shownByte] at text
          split at text
          next control =>
            have later := ih rest.length (by omega) rest (isUtf8_append_left.1 text) rfl
            exact (isUtf8_control control).append later
          next =>
            obtain ⟨chars, shape⟩ := isUtf8_iff_chars.1 text
            cases chars with
            | nil => cases shape
            | cons c chars =>
                obtain ⟨first, more, encoded, _, following⟩ := utf8EncodeChar_eq c
                rw [List.flatMap_cons, encoded] at shape
                obtain ⟨rfl, behind⟩ := List.cons.inj shape
                obtain ⟨later, rfl, ended⟩ := strip_following following behind.symm
                rw [List.length_append] at bound
                have inner := ih later.length (by omega) later
                  (ended ▸ isUtf8_iff_chars.2 ⟨chars, rfl⟩) rfl
                rw [← List.cons_append, ← encoded]
                exact (isUtf8_iff_chars.2 ⟨[c], List.flatMap_singleton _ _⟩).append inner

theorem isUtf8_shown_iff {bytes : List UInt8} :
    IsUtf8 (bytes.flatMap shownByte) ↔ IsUtf8 bytes := by
  refine ⟨isUtf8_of_shown bytes, fun text => ?_⟩
  obtain ⟨chars, rfl⟩ := isUtf8_iff_chars.1 text
  clear text
  induction chars with
  | nil => exact isUtf8_utf8 ""
  | cons c chars ih =>
      rw [List.flatMap_cons, List.flatMap_append]
      refine IsUtf8.append ?_ ih
      obtain ⟨first, more, encoded, _, following⟩ := utf8EncodeChar_eq c
      have visible : more.flatMap shownByte = more := by
        rw [List.flatMap_congr (g := fun byte => [byte]), List.flatMap_singleton']
        intro byte member
        rw [shownByte, if_neg fun control =>
          following byte member (isUTF8FirstByte_of_control control)]
      by_cases control : first ≤ 0x1F
      · have alone : String.utf8EncodeChar (Char.ofUInt8 first) ++ more =
            String.utf8EncodeChar c ++ [] := by
          rw [utf8EncodeChar_control control, encoded]
          simp
        rw [encoded, (utf8EncodeChar_cancel alone).2, List.flatMap_singleton, shownByte,
          if_pos control]
        exact isUtf8_utf8 _
      · rw [encoded, List.flatMap_cons, visible, shownByte, if_neg control]
        exact isUtf8_iff_chars.2 ⟨[c], by rw [List.flatMap_singleton, encoded]; rfl⟩

theorem isUtf8_what {report : ParseReport} : IsUtf8 report.what ↔ IsUtf8 report.lastRead := by
  rw [ParseReport.what, isUtf8_append_right, isUtf8_append_left, isUtf8_shown_iff]

/-! The messages of the checks. -/

/-- A refusal for which a text is given. -/
def Textual : Stop → Prop
  | .rejected err => IsUtf8 err
  | .threw _ => True

instance : PermitsTexts Textual := ⟨isUtf8_utf8⟩

instance : PermitsThrows Textual := ⟨fun _ => trivial⟩

section Managers

/-- A refusal's text is the parser's message, or is one of the manager's own. -/
theorem rules_rejected_isUtf8_iff {manager : RuleManager} {crypto : Crypto}
    {parser : List UInt8 → Except ParseReport Value} {env : RuleStep → Fault} {self : DeviceIdentity}
    {now : Int} {payload err : List UInt8} {dir later : RulesDir}
    (refused : (manager.applyBundle crypto (parseWith parser) env self now payload).run dir =
      .returned (.rejected err) later) :
    IsUtf8 err ↔ ∀ report, parser payload = .error report → IsUtf8 report.lastRead := by
  unfold RuleManager.applyBundle parseWith at refused
  cases parsed : parser payload with
  | error report =>
      rw [parsed] at refused
      cases refused
      rw [isUtf8_append_left, isUtf8_what]
      simp only [Except.error.injEq, forall_eq']
  | ok bundle =>
      rw [parsed] at refused
      refine iff_of_true ?_ fun _ impossible => nomatch impossible
      have ends : (manager.applyChecked crypto env self now bundle).Ends
          (fun result => ∀ err, result ≠ .rejected err) Textual :=
        RuleManager.ends_applyChecked manager env crypto self now bundle
      rcases ends.returned_handle refused with accepted | ⟨stop, textual, answered⟩
      · exact absurd rfl (accepted err)
      · cases stop with
        | rejected message =>
            cases answered
            exact textual
        | threw error => cases answered

theorem configs_rejected_isUtf8_iff {manager : ConfigManager} {crypto : Crypto}
    {parser : List UInt8 → Except ParseReport Value} {library : ConfigLibrary}
    {env : ConfigStep → Fault} {self : DeviceIdentity} {now : Int} {payload err : List UInt8}
    {dir later : ConfigDir} (reads : library.parse = parseWith parser)
    (refused : (ConfigManager.applyBundle manager library env crypto self now payload).run dir =
      .returned (.rejected err) later) :
    IsUtf8 err ↔ ∀ report, parser payload = .error report → IsUtf8 report.lastRead := by
  unfold ConfigManager.applyBundle at refused
  rw [reads, parseWith] at refused
  cases parsed : parser payload with
  | error report =>
      rw [parsed] at refused
      cases refused
      rw [isUtf8_append_left, isUtf8_what]
      simp only [Except.error.injEq, forall_eq']
  | ok bundle =>
      rw [parsed] at refused
      refine iff_of_true ?_ fun _ impossible => nomatch impossible
      have ends : (ConfigManager.applyChecked manager library env crypto self now bundle).Ends
          (fun result => ∀ err, result ≠ .rejected err) Textual :=
        ConfigManager.ends_applyChecked manager library env crypto self now bundle
      rcases ends.returned_handle refused with accepted | ⟨stop, textual, answered⟩
      · exact absurd rfl (accepted err)
      · cases stop with
        | rejected message =>
            cases answered
            exact textual
        | threw error => cases answered

end Managers

/-! The envelopes. -/

theorem decodeUtf8_eq_some_iff {bytes : List UInt8} {text : String} :
    decodeUtf8 bytes = some text ↔ utf8 text = bytes := by
  constructor
  · intro decoded
    unfold decodeUtf8 String.fromUTF8? at decoded
    split at decoded
    next valid =>
      have encoded : (utf8 text).toByteArray = text.toByteArray := by
        conv_rhs => rw [← String.ofList_toList (s := text)]
        exact String.toByteArray_ofList.symm
      have read : text.toByteArray = bytes.toByteArray := by
        rw [← Option.some.inj decoded]
        rfl
      have same := congrArg (fun array => array.data.toList) (encoded.trans read)
      simpa only [List.toList_data_toByteArray] using same
    next => cases decoded
  · rintro rfl
    exact decodeUtf8_utf8 text

theorem isSome_decodeUtf8 {bytes : List UInt8} : (decodeUtf8 bytes).isSome ↔ IsUtf8 bytes := by
  simp only [Option.isSome_iff_exists, decodeUtf8_eq_some_iff, IsUtf8]

/-- The queue has one envelope more, which says that a bundle was refused and why. -/
def Reported (library : EnvelopeLibrary) (eventType : String) (err : List UInt8)
    (pendingEvents : List String) (queued : Except Json.Error (List String)) : Prop :=
  ∃ envelope members item text, queued = .ok (pendingEvents ++ [envelope]) ∧
    Json.parse library.strtod envelope = some (.object members) ∧
    Json.lookup "msg_type" members = some (.string "event_up") ∧
    Json.lookup "content" members = some (.array [.object item]) ∧
    Json.lookup "eventType" item = some (.string eventType) ∧
    Json.lookup "detail" item = some (.string text) ∧ utf8 text = err

section Envelopes

variable {library : EnvelopeLibrary} {nowMs : Int} {manufacturer eventType severity text : String}

/-- One event as it is read back. -/
def eventMembers (timestampMs : Int) (eventType severity text : String) : List (String × Value) :=
  [("detail", .string text), ("eventType", .string eventType), ("severity", .string severity),
    ("timestamp", Json.parsedInteger (.ofInt timestampMs))]

/-- The envelope of one event as it is read back. -/
def envelopeMembers (nowMs : Int) (manufacturer : String) (event : List (String × Value)) :
    List (String × Value) :=
  [("content", .array [.object event]), ("manufacturer", .string manufacturer),
    ("msg_type", .string "event_up"), ("protocol_version", .string "1.0"),
    ("timestamp", Json.parsedInteger (.ofInt nowMs))]

variable {printer : Json.Printer}

theorem alike_event (timestampMs : Int) :
    Json.PrintsAlike printer
      (.object [("eventType", .string eventType), ("severity", .string severity),
        ("timestamp", longLongValue timestampMs), ("detail", .string text)])
      (.object (eventMembers timestampMs eventType severity text)) := by
  have reordered : Json.PrintsAlike printer
      (.object [("eventType", .string eventType), ("severity", .string severity),
        ("timestamp", longLongValue timestampMs), ("detail", .string text)])
      (.object [("detail", .string text), ("eventType", .string eventType),
        ("severity", .string severity), ("timestamp", longLongValue timestampMs)]) :=
    .perm (by simp) (@List.perm_append_comm _ [_, _, _] [_])
  exact reordered.trans <| .object <| .cons ⟨rfl, .refl _⟩ <| .cons ⟨rfl, .refl _⟩ <|
    .cons ⟨rfl, .refl _⟩ <| .cons ⟨rfl, .integer _⟩ .nil

theorem alike_envelope (timestampMs : Int) :
    Json.PrintsAlike printer (envelopeDocument "event_up" nowMs manufacturer
      [.object [("eventType", .string eventType), ("severity", .string severity),
        ("timestamp", longLongValue timestampMs), ("detail", .string text)]])
      (.object (envelopeMembers nowMs manufacturer
        (eventMembers timestampMs eventType severity text))) := by
  have reordered : ∀ content : Value, Json.PrintsAlike printer
      (.object [("msg_type", .string "event_up"), ("protocol_version", .string "1.0"),
        ("timestamp", longLongValue nowMs), ("manufacturer", .string manufacturer),
        ("content", content)])
      (.object [("content", content), ("manufacturer", .string manufacturer),
        ("msg_type", .string "event_up"), ("protocol_version", .string "1.0"),
        ("timestamp", longLongValue nowMs)]) := fun content =>
    .perm (by simp) ((@List.perm_append_comm _ [_, _, _] [_, _]).trans
      (List.Perm.swap _ _ _))
  exact (reordered _).trans <| .object <| .cons ⟨rfl, .array (.cons (alike_event timestampMs) .nil)⟩ <|
    .cons ⟨rfl, .refl _⟩ <| .cons ⟨rfl, .refl _⟩ <| .cons ⟨rfl, .refl _⟩ <|
    .cons ⟨rfl, .integer _⟩ .nil

theorem normal_envelope (timestampMs : Int) :
    Json.Normal (.object (envelopeMembers nowMs manufacturer
      (eventMembers timestampMs eventType severity text))) := by
  have names : ["content", "manufacturer", "msg_type", "protocol_version", "timestamp"].Pairwise
      (· < ·) ∧ ["detail", "eventType", "severity", "timestamp"].Pairwise (· < ·) := by
    decide
  have event : Json.Normal (.object (eventMembers timestampMs eventType severity text)) :=
    ⟨List.pairwise_map.mp names.2, trivial, trivial, trivial, Json.normal_parsedInteger _, trivial⟩
  exact ⟨List.pairwise_map.mp names.1, ⟨event, trivial⟩, trivial, trivial, trivial,
    Json.normal_parsedInteger _, trivial⟩

/-- An event is reported exactly when its detail is a text. -/
theorem reported_pushEvent_iff {pendingEvents : List String} {err : List UInt8} :
    Reported library eventType err pendingEvents
      (pushEvent library nowMs manufacturer pendingEvents ⟨eventType, err, severity, 0⟩) ↔
    IsUtf8 err := by
  constructor
  · rintro ⟨_, _, _, text, _, _, _, _, _, _, same⟩
    exact ⟨text, same⟩
  · rintro ⟨text, rfl⟩
    have pushed : pushEvent library nowMs manufacturer pendingEvents
        ⟨eventType, utf8 text, severity, 0⟩ = .ok (pendingEvents ++ [Json.dump library.floatText
          (.object (envelopeMembers nowMs manufacturer
            (eventMembers nowMs eventType severity text))) none]) := by
      rw [Json.dump, ← alike_envelope nowMs 0]
      simp [pushEvent, buildEventUpEnvelope, eventContent, textValue, decodeUtf8_utf8, bind,
        Except.bind, pure, Except.pure, Json.dump]
    refine ⟨_, _, eventMembers nowMs eventType severity text, text, pushed,
      Json.parse_dump _ (normal_envelope nowMs), ?_, ?_, ?_, ?_, rfl⟩
    · simp [envelopeMembers]
    · simp [envelopeMembers]
    · simp [eventMembers]
    · simp [eventMembers]

/-- Any other detail raises the serializer's exception. -/
theorem pushEvent_of_ill_formed {pendingEvents : List String} {item : EventItem}
    (illFormed : ¬ IsUtf8 item.detail) :
    pushEvent library nowMs manufacturer pendingEvents item = .error (.typeError 316) := by
  have undecoded : decodeUtf8 item.detail = none := by
    rw [← Option.not_isSome_iff_eq_none, isSome_decodeUtf8]
    exact illFormed
  simp [pushEvent, buildEventUpEnvelope, eventContent, textValue, undecoded, bind, Except.bind]

end Envelopes

/-- A refused payload is reported exactly when the bytes the parser repeats of it are a text. -/
theorem rejections_reported_iff (library : EnvelopeLibrary) (nowMs : Int) (manufacturer : String)
    (pendingEvents : List String) (parser : List UInt8 → Except ParseReport Value)
    (self : DeviceIdentity) (now : Int) (payload : List UInt8) :
    (∀ (manager : RuleManager) crypto env dir err later,
      (manager.applyBundle crypto (parseWith parser) env self now payload).run dir =
        .returned (.rejected err) later →
      (Reported library "RULE_REJECT" err pendingEvents
          (reportRules library nowMs manufacturer pendingEvents (.rejected err)) ↔
        ∀ report, parser payload = .error report → IsUtf8 report.lastRead)) ∧
    (∀ (manager : ConfigManager) (configs : ConfigLibrary) crypto env dir err later,
      (ConfigManager.applyBundle manager { configs with parse := parseWith parser } env crypto self
        now payload).run dir = .returned (.rejected err) later →
      (Reported library "CONFIG_REJECT" err pendingEvents
          (reportConfigs library nowMs manufacturer pendingEvents (.rejected err)) ↔
        ∀ report, parser payload = .error report → IsUtf8 report.lastRead)) := by
  constructor
  · intro manager crypto env dir err later refused
    exact reported_pushEvent_iff.trans (rules_rejected_isUtf8_iff refused)
  · intro manager configs crypto env dir err later refused
    exact reported_pushEvent_iff.trans (configs_rejected_isUtf8_iff rfl refused)

/-- The parser's report on a text whose first byte begins no value. -/
def literalReport (payload : List UInt8) : ParseReport where
  before := "[json.exception.parse_error.101] parse error at line 1, column 1: " ++
    "syntax error while parsing value - invalid literal; last read: '"
  lastRead := payload.take 1
  after := "'"

def literalRefusal (payload : List UInt8) : List UInt8 :=
  utf8 "json parse: " ++ (literalReport payload).what

private theorem refused_literal (payload : List UInt8) :
    (ruleManagerSample.applyBundle acceptingCrypto (parseWith fun text => .error (literalReport text))
      (fun _ => .none) deviceSample 1500 payload).run .empty =
        .returned (.rejected (literalRefusal payload)) .empty := rfl

theorem rejections_reported_sample :
    Reported envelopeLibrarySample "RULE_REJECT" (literalRefusal (utf8 "x")) []
      (reportRules envelopeLibrarySample 1500 "m" [] (.rejected (literalRefusal (utf8 "x")))) := by
  refine ((rejections_reported_iff envelopeLibrarySample 1500 "m" []
    (fun text => .error (literalReport text)) deviceSample 1500 (utf8 "x")).1 ruleManagerSample
    acceptingCrypto (fun _ => .none) .empty _ .empty (refused_literal (utf8 "x"))).mpr ?_
  intro report refused
  cases refused
  exact isUtf8_utf8 "x"

/-- The text of one letter with an accent is refused in silence. -/
theorem rejections_unreported_instance :
    (ruleManagerSample.applyBundle acceptingCrypto
      (parseWith fun text => .error (literalReport text)) (fun _ => .none) deviceSample 1500
      (utf8 "é")).run .empty = .returned (.rejected (literalRefusal (utf8 "é"))) .empty ∧
    reportRules envelopeLibrarySample 1500 "m" [] (.rejected (literalRefusal (utf8 "é"))) =
      .error (.typeError 316) := by
  refine ⟨refused_literal _, pushEvent_of_ill_formed ?_⟩
  have half : decodeUtf8 [0xC3] = none := by decide
  rw [literalRefusal, isUtf8_append_left, isUtf8_what, ← isSome_decodeUtf8]
  have shown : (literalReport (utf8 "é")).lastRead = [0xC3] := by decide
  rw [shown, half]
  simp

end Idsm.Managerd
