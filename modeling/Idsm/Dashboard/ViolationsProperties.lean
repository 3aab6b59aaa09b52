import Idsm.Dashboard.Violations

/-! Which accepted bodies become one faithful point. Strings are escaped; whole numbers and
plain instance names are taken on trust. -/

set_option autoImplicit false

namespace Idsm.Dashboard

open Idsm.Foundation (LineProtocol.parse LineProtocol.writePoint)
open Idsm.Foundation.LineProtocol (Point FieldValue Plain PlainTag PlainField InRange stops)

/-! The text of a whole number. -/

section Numbers

variable {digits : List Nat} {value : Int} {number : JsNumber}

theorem toDigits_foldl (small : ∀ digit ∈ digits, digit < 10) (some' : digits ≠ [])
    (first : ∀ digit ∈ digits.head?, digit ≠ 0) :
    Nat.toDigits 10 (digits.foldl (fun value digit => value * 10 + digit) 0) = digitChars digits := by
  induction digits using List.reverseRecOn with
  | nil => exact absurd rfl some'
  | append_singleton front digit ih =>
      have last := small digit (by simp)
      rw [List.foldl_append, List.foldl_cons, List.foldl_nil, digitChars, List.map_append,
        List.map_singleton]
      cases front with
      | nil => simp [Nat.toDigits_of_lt_base last]
      | cons head front =>
          have read := ih (fun other member => small other (by simp at member ⊢; tauto))
            (List.cons_ne_nil _ _) first
          have positive : 0 < (head :: front).foldl (fun value digit => value * 10 + digit) 0 := by
            apply Nat.pos_of_ne_zero
            intro zero
            rw [zero, digitChars] at read
            have digit := List.head_eq_of_cons_eq read
            have nonzero := first head rfl
            have below := small head (by simp)
            have chars : ∀ digit < 10, digit ≠ 0 → Nat.digitChar digit ≠ '0' := by decide
            exact chars head below nonzero digit.symm
          rw [Nat.mul_comm, ← Nat.toDigits_append_toDigits (by decide) positive last, read,
            Nat.toDigits_of_lt_base last]
          rfl

theorem toDigits_shift {magnitude : Nat} (positive : 0 < magnitude) (zeros : Nat) :
    Nat.toDigits 10 (magnitude * 10 ^ zeros) =
      Nat.toDigits 10 magnitude ++ List.replicate zeros '0' := by
  induction zeros with
  | zero => simp
  | succ zeros ih =>
      have next : magnitude * 10 ^ (zeros + 1) = 10 * (magnitude * 10 ^ zeros) + 0 := by
        rw [Nat.pow_succ, ← Nat.mul_assoc, Nat.mul_comm, Nat.add_zero]
      rw [next, ← Nat.toDigits_append_toDigits (by decide)
        (Nat.mul_pos positive (Nat.pow_pos (by decide))) (by decide), ih, List.append_assoc,
        List.replicate_succ']
      rfl

theorem Significand.toDigits_value (significand : Significand) :
    Nat.toDigits 10 significand.value = digitChars significand.digits :=
  toDigits_foldl significand.small significand.nonempty significand.first

theorem Significand.value_pos (significand : Significand) : 0 < significand.value := by
  apply Nat.pos_of_ne_zero
  intro zero
  have read := significand.toDigits_value
  rw [zero] at read
  cases found : significand.digits with
  | nil => exact significand.nonempty found
  | cons head rest =>
      rw [found, digitChars] at read
      have nonzero := significand.first head (by rw [found]; rfl)
      have below := significand.small head (by rw [found]; exact List.mem_cons_self)
      have chars : ∀ digit < 10, digit ≠ 0 → Nat.digitChar digit ≠ '0' := by decide
      exact chars head below nonzero (List.head_eq_of_cons_eq read).symm

/-- A whole number of 64 bits is printed with all its digits. -/
theorem text_of_whole (whole : number.whole = some value) (inRange : InRange value) :
    number.text = toString value := by
  cases number with
  | zero =>
      cases whole
      rfl
  | infinite negative => cases whole
  | finite negative significand point =>
      rw [JsNumber.whole] at whole
      by_cases inside : (significand.digits.length : Int) ≤ point
      · rw [if_pos inside] at whole
        generalize zeros : (point - significand.digits.length).toNat = count at whole
        have positive : 0 < significand.value * 10 ^ count :=
          Nat.mul_pos significand.value_pos (Nat.pow_pos (by decide))
        have printed := toDigits_shift significand.value_pos count
        rw [significand.toDigits_value] at printed
        have signed : value = if negative = true then -((significand.value * 10 ^ count : Nat) : Int)
            else ((significand.value * 10 ^ count : Nat) : Int) := by
          push_cast
          exact (Option.some.inj whole).symm
        generalize significand.value * 10 ^ count = total at positive printed signed
        have small : total < 10 ^ 21 := by
          have bounds := inRange
          unfold InRange at bounds
          split at signed <;> omega
        have short : point ≤ 21 := by
          have length := (Nat.length_toDigits_le_iff (b := 10) (by decide) (by decide)).mpr small
          rw [printed, List.length_append, List.length_replicate, digitChars,
            List.length_map] at length
          omega
        have text : magnitudeText significand.digits point = Nat.toDigits 10 total := by
          rw [magnitudeText]
          simp only [inside, short, and_self, if_true, zeros, printed]
        rw [JsNumber.text, text, signed]
        cases negative with
        | false => exact (Nat.repr_eq_ofList_toDigits).symm
        | true =>
            obtain ⟨less, rfl⟩ := Nat.exists_eq_succ_of_ne_zero (Nat.ne_of_gt positive)
            change _ = "-" ++ (less + 1).repr
            rw [Nat.repr_eq_ofList_toDigits]
            apply String.toList_injective
            simp
      · rw [if_neg inside] at whole
        cases whole

end Numbers

/-! Texts that need no escape. -/

section Tame

variable {text more : String} {number : Nat}

def tame (c : Char) : Bool := c.isAlphanum || c == '_' || c == '.' || c == '+' || c == '-'

/-- Letters, digits and the signs of a number. -/
def Tame (text : String) : Prop := text.toList.all tame = true

instance (text : String) : Decidable (Tame text) := instDecidableEqBool _ _

private theorem tame_clean {c : Char} (plain : tame c = true) : stops c = false ∧ c ≠ '\\' := by
  constructor
  · cases stopping : stops c with
    | false => rfl
    | true =>
        simp only [stops, Foundation.LineProtocol.special, Bool.or_eq_true, beq_iff_eq] at stopping
        rcases stopping with ((rfl | rfl) | rfl) | rfl <;> cases plain
  · intro same
    subst same
    cases plain

theorem plain_of_tame {characters : List Char} (all : characters.all tame = true) :
    Plain characters := by
  rw [List.all_eq_true] at all
  constructor
  · exact fun c member => (tame_clean (all c member)).1
  · intro last
    exact (tame_clean (all _ (List.mem_of_getLast? last))).2 rfl

theorem Tame.append (tame' : Tame text) (tame'' : Tame more) : Tame (text ++ more) := by
  rw [Tame, String.toList_append, List.all_append, tame', tame'']
  rfl

theorem Tame.escapeLpTag (tame' : Tame text) : escapeLpTag text = text := by
  have same : ∀ c ∈ text.toList, (if c = ' ' ∨ c = ',' ∨ c = '=' then ['\\', c] else [c]) = [c] := by
    intro c member
    have clean := (tame_clean (List.all_eq_true.mp tame' c member)).1
    rw [if_neg]
    rintro (rfl | rfl | rfl) <;> cases clean
  rw [Dashboard.escapeLpTag, List.flatMap_congr same, List.flatMap_singleton', String.ofList_toList]

private theorem tame_of_digit {c : Char} (digit : c.isDigit = true) : tame c = true := by
  simp [tame, Char.isAlphanum, digit]

theorem all_tame_toDigits (number : Nat) : (Nat.toDigits 10 number).all tame = true := by
  rw [List.all_eq_true]
  exact fun c member => tame_of_digit (Nat.isDigit_of_mem_toDigits (by decide) (by decide) member)

theorem tame_toString (number : Nat) : Tame (toString number) := by
  rw [Tame, Nat.toString_eq_ofList_toDigits, String.toList_ofList]
  exact all_tame_toDigits number

private theorem all_tame_digitChars {digits : List Nat} (small : ∀ digit ∈ digits, digit < 10) :
    (digitChars digits).all tame = true := by
  have chars : ∀ digit < 10, tame (Nat.digitChar digit) = true := by decide
  rw [digitChars, List.all_eq_true]
  intro c member
  obtain ⟨digit, inside, rfl⟩ := List.mem_map.mp member
  exact chars digit (small digit inside)

/-- A number's text needs no escape. -/
theorem JsNumber.tame_text (number : JsNumber) : Tame number.text := by
  cases number with
  | zero => decide
  | infinite negative => cases negative <;> decide
  | finite negative significand point =>
      have sign : (if negative = true then ['-'] else []).all tame = true := by
        cases negative <;> rfl
      have zeros : ∀ count, (List.replicate count '0').all tame = true := by
        intro count
        rw [List.all_eq_true]
        intro c member
        rw [List.eq_of_mem_replicate member]
        rfl
      have digits := all_tame_digitChars significand.small
      have taken : ∀ count, (digitChars (significand.digits.take count)).all tame = true :=
        fun count => all_tame_digitChars fun digit member =>
          significand.small digit (List.mem_of_mem_take member)
      have dropped : ∀ count, (digitChars (significand.digits.drop count)).all tame = true :=
        fun count => all_tame_digitChars fun digit member =>
          significand.small digit (List.mem_of_mem_drop member)
      have dot : tame '.' = true ∧ tame '0' = true ∧ tame 'e' = true := by decide
      rw [Tame, JsNumber.text, String.toList_ofList, List.all_append, sign, Bool.true_and,
        magnitudeText]
      split
      · rw [List.all_append, digits, zeros]
        rfl
      · split
        · rw [List.all_append, List.all_cons, taken, dropped, dot.1]
          rfl
        · split
          · rw [List.all_cons, List.all_cons, List.all_append, zeros, digits, dot.1, dot.2.1]
            rfl
          · have exponent : ((if 0 < point then ['+'] else ['-']) ++
                Nat.toDigits 10 (point - 1).natAbs).all tame = true := by
              rw [List.all_append, all_tame_toDigits]
              split <;> rfl
            have behind : (if significand.digits.length = 1 then []
                else '.' :: digitChars (significand.digits.drop 1)).all tame = true := by
              split
              · rfl
              · rw [List.all_cons, dropped, dot.1]
                rfl
            rw [List.all_append, List.all_append, List.all_cons, taken, behind, exponent, dot.2.2]
            rfl

theorem JsNumber.text_ne_empty (number : JsNumber) : number.text.toList ≠ [] := by
  cases number with
  | zero => decide
  | infinite negative => cases negative <;> decide
  | finite negative significand point =>
      have some' : digitChars significand.digits ≠ [] := by
        simpa [digitChars] using significand.nonempty
      have front : digitChars (significand.digits.take 1) ≠ [] := by
        simpa [digitChars] using significand.nonempty
      rw [JsNumber.text, String.toList_ofList, magnitudeText]
      apply List.append_ne_nil_of_right_ne_nil
      split
      · exact List.append_ne_nil_of_left_ne_nil some' _
      · split
        · simp
        · split <;> simp

end Tame

/-! The decoded context. -/

section Contexts

variable {runtime : Runtime} {raw : List UInt8} {payload eventId : JsValue}
  {decoded : Option Decoded}

theorem bigEndian_lt (bytes : List UInt8) : Protocol.bigEndian bytes < 256 ^ bytes.length := by
  rw [Protocol.bigEndian]
  induction bytes using List.reverseRecOn with
  | nil => decide
  | append_singleton bytes byte ih =>
      rw [List.foldl_append, List.foldl_cons, List.foldl_nil, List.length_append,
        List.length_singleton, Nat.pow_succ]
      have bound := byte.toNat_lt
      omega

private theorem read_lt (raw : List UInt8) (offset : Nat) {size : Nat} (short : size ≤ 4) :
    Protocol.bigEndian ((raw.drop offset).take size) < 2 ^ 32 := by
  refine Nat.lt_of_lt_of_le (bigEndian_lt _) ?_
  calc 256 ^ ((raw.drop offset).take size).length ≤ 256 ^ 4 :=
        Nat.pow_le_pow_right (by decide) (Nat.le_trans (by simp) short)
    _ = 2 ^ 32 := by decide

private theorem inRange_of_lt {number : Nat} (small : number < 2 ^ 32) :
    InRange (number : Int) := by
  constructor <;> omega

def wholeField (name : String) (number : Nat) : List Char × FieldValue :=
  (name.toList, .integer number)

def textField (name text : String) : List Char × FieldValue := (name.toList, .text text.toList)

/-- What the fields of a decoded context say. -/
def decodedValues : Option Decoded → List (List Char × FieldValue)
  | none => []
  | some (.eth context) =>
      [wholeField "detector_type" context.detectorType, wholeField "aux" context.aux,
        textField "summary" context.summary, textField "src_ip" context.srcIp,
        textField "dst_ip" context.dstIp, wholeField "src_port" context.srcPort,
        wholeField "dst_port" context.dstPort, textField "proto" context.proto]
  | some (.host context) =>
      [wholeField "detector_type" context.detectorType, wholeField "aux" context.aux,
        textField "summary" context.summary, textField "proc" context.proc,
        wholeField "host_pid" context.hostPid]

/-- The name of a detector needs no escape, and every decoded field can be read back. -/
structure Orderly (decoded : Option Decoded) : Prop where
  tame : Tame (Decoded.detector decoded)
  named : (Decoded.detector decoded).toList ≠ []
  fields : ∀ field ∈ decodedValues decoded, PlainField field

private theorem plainField_wholeField {name : String} {number : Nat} (tame' : Tame name)
    (named : name.toList ≠ []) (small : number < 2 ^ 32) : PlainField (wholeField name number) :=
  ⟨plain_of_tame tame', named, inRange_of_lt small⟩

private theorem plainField_textField {name : String} (text : String) (tame' : Tame name)
    (named : name.toList ≠ []) : PlainField (textField name text) :=
  ⟨plain_of_tame tame', named, trivial⟩

private theorem typed_name {front : String} (tame' : Tame front) (named : front.toList ≠ [])
    (number : Nat) : Tame (front ++ toString number) ∧ (front ++ toString number).toList ≠ [] := by
  refine ⟨tame'.append (tame_toString number), ?_⟩
  rw [String.toList_append]
  exact List.append_ne_nil_of_left_ne_nil named _

private theorem detectorNames_tame (detType : Nat) :
    Tame ((detectorNames detType).getD ("TYPE_" ++ toString detType)) ∧
      ((detectorNames detType).getD ("TYPE_" ++ toString detType)).toList ≠ [] := by
  have other := typed_name (show Tame "TYPE_" by decide) (by decide) detType
  unfold detectorNames
  split
  case h_14 => exact other
  all_goals exact ⟨by decide, by decide⟩

theorem orderly_eth (raw : List UInt8) : Orderly (some (.eth (decodeEthContext raw))) where
  tame := (detectorNames_tame _).1
  named := (detectorNames_tame _).2
  fields := by
    simp only [decodedValues, List.forall_mem_cons, List.not_mem_nil, IsEmpty.forall_iff,
      implies_true, and_true]
    exact ⟨plainField_wholeField (by decide) (by decide) (read_lt raw 0 (by decide)),
      plainField_wholeField (by decide) (by decide) (read_lt raw 42 (by decide)),
      plainField_textField _ (by decide) (by decide), plainField_textField _ (by decide) (by decide),
      plainField_textField _ (by decide) (by decide),
      plainField_wholeField (by decide) (by decide) (read_lt raw 2 (by decide)),
      plainField_wholeField (by decide) (by decide) (read_lt raw 4 (by decide)),
      plainField_textField _ (by decide) (by decide)⟩

private theorem hostDetectorNames_tame (key : String) (detType : Nat) :
    Tame ((hostDetectorNames.lookup key).getD ("HOST_TYPE_" ++ toString detType)) ∧
      ((hostDetectorNames.lookup key).getD ("HOST_TYPE_" ++ toString detType)).toList ≠ [] := by
  cases found : hostDetectorNames.lookup key with
  | none => exact typed_name (by decide) (by decide) detType
  | some name =>
      obtain ⟨front, back, split, _⟩ := List.lookup_eq_some_iff.mp found
      have all : ∀ pair ∈ hostDetectorNames, Tame pair.2 ∧ pair.2.toList ≠ [] := by decide
      exact all (key, name) (by rw [split]; simp)

theorem orderly_host {context : HostContext}
    (read : decodeHostContext runtime raw eventId = some context) :
    Orderly (some (.host context)) := by
  rw [decodeHostContext] at read
  obtain ⟨key, _, read⟩ := Option.bind_eq_some_iff.mp read
  split at read
  · cases read
  · rw [← Option.some.inj read]
    constructor
    · exact (hostDetectorNames_tame key _).1
    · exact (hostDetectorNames_tame key _).2
    · simp only [decodedValues, List.forall_mem_cons, List.not_mem_nil, IsEmpty.forall_iff,
        implies_true, and_true]
      exact ⟨plainField_wholeField (by decide) (by decide) (read_lt raw 0 (by decide)),
        plainField_wholeField (by decide) (by decide) (read_lt raw 14 (by decide)),
        plainField_textField _ (by decide) (by decide),
        plainField_textField _ (by decide) (by decide),
        plainField_wholeField (by decide) (by decide) (read_lt raw 2 (by decide))⟩

theorem orderly_decodeContext (read : decodeContext runtime payload eventId = some decoded) :
    Orderly decoded := by
  have none' : Orderly none := ⟨by decide, by decide, fun _ member => nomatch member⟩
  rw [decodeContext] at read
  split at read
  · rw [← Option.some.inj read]
    exact none'
  · split at read
    · rw [← Option.some.inj read]
      exact orderly_eth _
    · split at read
      · obtain ⟨context, host, same⟩ := Option.map_eq_some_iff.mp read
        rw [← same]
        exact orderly_host host
      · rw [← Option.some.inj read]
        exact none'

/-- An event with a whole number for its identifier is decoded. -/
theorem decodeContext_of_whole {number : JsNumber} {value : Int} (whole : number.whole = some value)
    (inRange : InRange value) :
    ∃ decoded, decodeContext runtime payload (.number number) = some decoded := by
  have key : number.text ∉ inheritedNames := by
    rw [text_of_whole whole inRange]
    intro member
    have read := Foundation.LineProtocol.readInteger_toString inRange
    have none' : ∀ name ∈ inheritedNames,
        Foundation.LineProtocol.readInteger name.toList = none := by decide
    rw [none' _ member] at read
    cases read
  rw [decodeContext]
  split
  · exact ⟨_, rfl⟩
  · split
    · exact ⟨_, rfl⟩
    · split
      · rw [decodeHostContext, templateText]
        simp only [Option.bind_eq_bind, Option.bind_some, key, if_false, Option.map_some]
        exact ⟨_, rfl⟩
      · exact ⟨_, rfl⟩

end Contexts

/-! One faithful point. -/

def JsValue.scalar : JsValue → Bool
  | .boolean _ => true
  | .number _ => true
  | .string _ => true
  | _ => false

/-- A tag gives the text of a value that is no list and no object. -/
structure Names (value : JsValue) (text : List Char) : Prop where
  scalar : value.scalar = true
  text : ∃ name, templateText value = some name ∧ name.toList = text

/-- An integer field gives a number of the body. -/
def Counts (value : JsValue) (whole : Int) : Prop :=
  ∃ number, value = .number number ∧ number.whole = some whole

def eventFieldNames : List (List Char) :=
  ["event_id".toList, "count".toList, "context_data_version".toList, "payload_len".toList,
    "payload".toList, "ids_message".toList]

/-- The fields of an event with whole numbers and texts. -/
def writtenFields (eventId count version payloadLen : Int) (payload idsMessage : String)
    (decoded : Option Decoded) : List (List Char × FieldValue) :=
  eventFieldNames.zip [.integer eventId, .integer count, .integer version, .integer payloadLen,
    .text payload.toList, .text idsMessage.toList] ++ decodedValues decoded

/-- The point has the tags and the fields of the event, with its values, and no others. -/
structure Faithful (event : Violation) (decoded : Option Decoded) (receivedAtNs : Int)
    (point : Point) : Prop where
  measurement : point.measurement = "idsm_violations".toList
  tags : ∃ idsm sensor, Names event.idsmInstanceId idsm ∧ Names event.sensorInstanceId sensor ∧
    point.tags = [("severity".toList, event.severity.toList), ("idsm_instance".toList, idsm),
      ("sensor_instance".toList, sensor), ("detector".toList, (Decoded.detector decoded).toList)]
  fields : ∃ eventId count version payloadLen payload idsMessage,
    Counts event.eventId eventId ∧ Counts event.count count ∧
    Counts event.contextDataVersion version ∧ Counts event.payloadLen payloadLen ∧
    event.payload = .string payload ∧ event.idsMessage = .string idsMessage ∧
    point.fields = writtenFields eventId count version payloadLen payload idsMessage decoded
  timestamp : point.timestamp = some receivedAtNs

/-- A line is written, it is one point, and the point is faithful. -/
def Intact (runtime : Runtime) (event : Violation) (receivedAtNs : Int) : Prop :=
  ∃ line decoded point, violationLine runtime event receivedAtNs = some line ∧
    decodeContext runtime event.payload event.eventId = some decoded ∧
    LineProtocol.parse line.toList = some [point] ∧ Faithful event decoded receivedAtNs point

/-- A whole number of 64 bits. -/
def Whole (value : JsValue) : Prop :=
  ∃ number whole, value = .number number ∧ number.whole = some whole ∧ InRange whole

/-- A name that needs no escape. -/
def SafeName (value : JsValue) : Prop :=
  value.scalar = true ∧ ∃ name, templateText value = some name ∧ Plain name.toList ∧
    name.toList ≠ []

structure Safe (event : Violation) (receivedAtNs : Int) : Prop where
  idsmInstance : SafeName event.idsmInstanceId
  sensorInstance : SafeName event.sensorInstanceId
  eventId : Whole event.eventId
  count : Whole event.count
  contextDataVersion : Whole event.contextDataVersion
  payloadLen : Whole event.payloadLen
  payload : event.payload.isString = true
  idsMessage : event.idsMessage.isString = true
  receivedAt : InRange receivedAtNs

section Lines

variable {runtime : Runtime} {event : Violation} {decoded : Option Decoded} {receivedAtNs : Int}
  {value : JsValue} {text : String}

theorem isString_iff : value.isString = true ↔ ∃ text, value = .string text := by
  cases value <;> simp [JsValue.isString]

theorem escaped_eq_some : value.escaped = some text ↔
    ∃ plain, value = .string plain ∧ text = escapeLpString plain := by
  cases value <;> simp [JsValue.escaped, eq_comm]

theorem toList_escapeLpString (text : String) : (escapeLpString text).toList =
    Foundation.LineProtocol.escapeString text.toList := String.toList_ofList

theorem toList_counted (name : String) (value : Int) : (counted name (toString value)).toList =
    Foundation.LineProtocol.writeField (name.toList, .integer value) := by
  simp [counted, Foundation.LineProtocol.writeField, Foundation.LineProtocol.writeValue]

theorem toList_quoted (name text : String) : (quoted name (escapeLpString text)).toList =
    Foundation.LineProtocol.writeField (textField name text) := by
  simp [quoted, textField, Foundation.LineProtocol.writeField, Foundation.LineProtocol.writeValue,
    toList_escapeLpString]

theorem toList_decodedFields (decoded : Option Decoded) :
    (decodedFields decoded).map String.toList =
      (decodedValues decoded).map Foundation.LineProtocol.writeField := by
  have counted' : ∀ (name : String) (number : Nat), (counted name (toString number)).toList =
      Foundation.LineProtocol.writeField (wholeField name number) := fun name number =>
    toList_counted name number
  cases decoded with
  | none => rfl
  | some context =>
      cases context with
      | eth context => simp only [decodedFields, decodedValues, List.map_cons, List.map_nil,
          counted', toList_quoted]
      | host context => simp only [decodedFields, decodedValues, List.map_cons, List.map_nil,
          counted', toList_quoted]

/-- The line up to its fields. -/
theorem toList_line (severity idsm sensor detector fields time : String) :
    ("idsm_violations," ++ ",".intercalate ["severity=" ++ severity, "idsm_instance=" ++ idsm,
      "sensor_instance=" ++ sensor, "detector=" ++ detector] ++ " " ++ fields ++ " " ++
        time).toList =
      "idsm_violations".toList ++
        [("severity".toList, severity.toList), ("idsm_instance".toList, idsm.toList),
          ("sensor_instance".toList, sensor.toList), ("detector".toList, detector.toList)].flatMap
            (fun tag => ',' :: Foundation.LineProtocol.writeTag tag) ++
        ' ' :: (fields.toList ++ ' ' :: time.toList) := by
  simp [Foundation.LineProtocol.writeTag, String.intercalate_cons_cons]

theorem toList_fields (eventId count version payloadLen : Int) (payload idsMessage : String) :
    (",".intercalate ([counted "event_id" (toString eventId), counted "count" (toString count),
      counted "context_data_version" (toString version),
      counted "payload_len" (toString payloadLen), quoted "payload" (escapeLpString payload),
      quoted "ids_message" (escapeLpString idsMessage)] ++ decodedFields decoded)).toList =
      [','].intercalate ((writtenFields eventId count version payloadLen payload idsMessage
        decoded).map Foundation.LineProtocol.writeField) := by
  rw [String.toList_intercalate, List.map_append, toList_decodedFields, writtenFields,
    List.map_append]
  simp only [List.map_cons, List.map_nil, toList_counted, toList_quoted, eventFieldNames,
    List.zip_cons_cons, List.zip_nil_right, textField]
  rfl

theorem severity_tame (valid : event.severity ∈ validSeverities) :
    Tame event.severity ∧ event.severity.toList ≠ [] := by
  have all : ∀ severity ∈ validSeverities, Tame severity ∧ severity.toList ≠ [] := by decide
  exact all _ valid

private theorem plainTag (name : String) (tame' : Tame name) (named : name.toList ≠ [])
    {text : List Char} (plain : Plain text) (given : text ≠ []) : PlainTag (name.toList, text) :=
  ⟨plain_of_tame tame', named, plain, given⟩

private theorem plainField (name : String) (tame' : Tame name) (named : name.toList ≠ [])
    {value : FieldValue} (writable : Foundation.LineProtocol.Writable value) :
    PlainField (name.toList, value) := ⟨plain_of_tame tame', named, writable⟩

theorem intact_of_safe (valid : event.severity ∈ validSeverities)
    (safe : Safe event receivedAtNs) : Intact runtime event receivedAtNs := by
  obtain ⟨idsmScalar, idsm, idsmText, idsmPlain, idsmNamed⟩ := safe.idsmInstance
  obtain ⟨sensorScalar, sensor, sensorText, sensorPlain, sensorNamed⟩ := safe.sensorInstance
  obtain ⟨eventId, id, isEventId, idWhole, idRange⟩ := safe.eventId
  obtain ⟨count, number, isCount, countWhole, countRange⟩ := safe.count
  obtain ⟨version, versionNumber, isVersion, versionWhole, versionRange⟩ := safe.contextDataVersion
  obtain ⟨payloadLen, length, isLength, lengthWhole, lengthRange⟩ := safe.payloadLen
  obtain ⟨payload, isPayload⟩ := isString_iff.1 safe.payload
  obtain ⟨idsMessage, isMessage⟩ := isString_iff.1 safe.idsMessage
  obtain ⟨decoded, read⟩ : ∃ decoded, decodeContext runtime event.payload event.eventId =
      some decoded := by
    rw [isEventId]
    exact decodeContext_of_whole idWhole idRange
  have orderly := orderly_decodeContext read
  have severity := severity_tame valid
  have written : violationLine runtime event receivedAtNs = some ("idsm_violations," ++
      ",".intercalate ["severity=" ++ event.severity, "idsm_instance=" ++ idsm,
        "sensor_instance=" ++ sensor, "detector=" ++ Decoded.detector decoded] ++ " " ++
      ",".intercalate ([counted "event_id" (toString id), counted "count" (toString number),
        counted "context_data_version" (toString versionNumber),
        counted "payload_len" (toString length), quoted "payload" (escapeLpString payload),
        quoted "ids_message" (escapeLpString idsMessage)] ++ decodedFields decoded) ++ " " ++
      toString receivedAtNs) := by
    rw [violationLine, read]
    simp only [Option.bind_eq_bind, Option.bind_some, toLineProtocol, idsmText, sensorText,
      isEventId, isCount, isVersion, isLength, isPayload, isMessage, templateText,
      JsValue.escaped, text_of_whole idWhole idRange, text_of_whole countWhole countRange,
      text_of_whole versionWhole versionRange, text_of_whole lengthWhole lengthRange,
      severity.1.escapeLpTag, orderly.tame.escapeLpTag]
    rfl
  refine ⟨_, decoded, ⟨"idsm_violations".toList,
    [("severity".toList, event.severity.toList), ("idsm_instance".toList, idsm.toList),
      ("sensor_instance".toList, sensor.toList),
      ("detector".toList, (Decoded.detector decoded).toList)],
    writtenFields id number versionNumber length payload idsMessage decoded, some receivedAtNs⟩,
    written, read, ?_, ?_⟩
  · rw [toList_line, toList_fields]
    refine Foundation.LineProtocol.parse_writePoint (plain_of_tame (by decide)) (by decide) ?_ ?_
      (List.cons_ne_nil _ _) safe.receivedAt
    · simp only [List.forall_mem_cons, List.not_mem_nil, IsEmpty.forall_iff, implies_true, and_true]
      exact ⟨plainTag "severity" (by decide) (by decide) (plain_of_tame severity.1) severity.2,
        plainTag "idsm_instance" (by decide) (by decide) idsmPlain idsmNamed,
        plainTag "sensor_instance" (by decide) (by decide) sensorPlain sensorNamed,
        plainTag "detector" (by decide) (by decide) (plain_of_tame orderly.tame) orderly.named⟩
    · intro field member
      rcases List.mem_append.mp member with own | fromContext
      · simp only [eventFieldNames, List.zip_cons_cons, List.zip_nil_right, List.mem_cons,
          List.not_mem_nil, or_false] at own
        rcases own with rfl | rfl | rfl | rfl | rfl | rfl
        · exact plainField "event_id" (by decide) (by decide) idRange
        · exact plainField "count" (by decide) (by decide) countRange
        · exact plainField "context_data_version" (by decide) (by decide) versionRange
        · exact plainField "payload_len" (by decide) (by decide) lengthRange
        · exact plainField "payload" (by decide) (by decide) trivial
        · exact plainField "ids_message" (by decide) (by decide) trivial
      · exact orderly.fields field fromContext
  · refine ⟨rfl, ⟨_, _, ⟨idsmScalar, idsm, idsmText, rfl⟩, ⟨sensorScalar, sensor, sensorText, rfl⟩,
      rfl⟩, ⟨_, _, _, _, _, _, ⟨_, isEventId, idWhole⟩, ⟨_, isCount, countWhole⟩,
      ⟨_, isVersion, versionWhole⟩, ⟨_, isLength, lengthWhole⟩, isPayload, isMessage, rfl⟩, rfl⟩

theorem safe_of_intact (valid : event.severity ∈ validSeverities)
    (intact : Intact runtime event receivedAtNs) : Safe event receivedAtNs := by
  obtain ⟨line, decoded, point, written, read, parsed, faithful⟩ := intact
  have bounded := Foundation.LineProtocol.bounded_of_parse parsed List.mem_cons_self
  obtain ⟨eventId, count, version, payloadLen, payload, idsMessage, ⟨_, isEventId, idWhole⟩,
    ⟨_, isCount, countWhole⟩, ⟨_, isVersion, versionWhole⟩, ⟨_, isLength, lengthWhole⟩, isPayload,
    isMessage, fields⟩ := faithful.fields
  have inRange : ∀ key value, (key, .integer value) ∈
      writtenFields eventId count version payloadLen payload idsMessage decoded →
        InRange value := by
    rw [← fields]
    exact bounded.fields
  obtain ⟨idsm, sensor, ⟨idsmScalar, idsm', idsmText, rfl⟩, ⟨sensorScalar, sensor', sensorText, rfl⟩,
    tags⟩ := faithful.tags
  have severity := severity_tame valid
  obtain ⟨rest, behind⟩ : ∃ rest, line.toList = "idsm_violations".toList ++ ',' ::
      ("severity".toList ++ '=' :: (event.severity.toList ++ ',' ::
        ("idsm_instance".toList ++ '=' :: (idsm'.toList ++ ',' ::
          ("sensor_instance".toList ++ '=' :: (sensor'.toList ++ ',' :: rest)))))) := by
    rw [violationLine, read] at written
    simp only [Option.bind_eq_bind, Option.bind_some, toLineProtocol, idsmText, sensorText,
      isEventId, isCount, isVersion, isLength, isPayload, isMessage, templateText,
      JsValue.escaped, severity.1.escapeLpTag] at written
    rw [← Option.some.inj written, toList_line]
    simp [Foundation.LineProtocol.writeTag]
  obtain ⟨left, pointRead⟩ := Foundation.LineProtocol.readPoint_of_parse parsed
  rw [behind] at pointRead
  obtain ⟨_, _, _, tagsRead⟩ := Foundation.LineProtocol.readPoint_measurement
    (plain_of_tame (show Tame "idsm_violations" by decide)) _ pointRead
  rw [tags] at tagsRead
  obtain ⟨_, _, _, behindSeverity⟩ := Foundation.LineProtocol.plain_of_readTags
    (plain_of_tame (show Tame "severity" by decide)) (by decide) tagsRead rfl
  obtain ⟨idsmPlain, idsmNamed, _, behindIdsm⟩ := Foundation.LineProtocol.plain_of_readTags
    (plain_of_tame (show Tame "idsm_instance" by decide)) (by decide) behindSeverity rfl
  obtain ⟨sensorPlain, sensorNamed, _⟩ := Foundation.LineProtocol.plain_of_readTags
    (plain_of_tame (show Tame "sensor_instance" by decide)) (by decide) behindIdsm rfl
  have own : ∀ index, ∀ field ∈ (writtenFields eventId count version payloadLen payload idsMessage
      decoded)[index]?, field ∈ writtenFields eventId count version payloadLen payload idsMessage
        decoded := fun _ _ found => List.mem_of_getElem? found
  constructor
  · exact ⟨idsmScalar, idsm', idsmText, idsmPlain, idsmNamed⟩
  · exact ⟨sensorScalar, sensor', sensorText, sensorPlain, sensorNamed⟩
  · exact ⟨_, _, isEventId, idWhole, inRange _ _ (own 0 _ rfl)⟩
  · exact ⟨_, _, isCount, countWhole, inRange _ _ (own 1 _ rfl)⟩
  · exact ⟨_, _, isVersion, versionWhole, inRange _ _ (own 2 _ rfl)⟩
  · exact ⟨_, _, isLength, lengthWhole, inRange _ _ (own 3 _ rfl)⟩
  · exact isString_iff.2 ⟨payload, isPayload⟩
  · exact isString_iff.2 ⟨idsMessage, isMessage⟩
  · exact bounded.timestamp _ faithful.timestamp

/-- Where the types are checked, whole numbers are all that is missing. -/
theorem safe_iff_of_typed (typed : event.typed = true) :
    Safe event receivedAtNs ↔ (Whole event.eventId ∧ Whole event.count ∧
      Whole event.contextDataVersion ∧ Whole event.payloadLen) ∧ InRange receivedAtNs := by
  simp only [Violation.typed, Bool.and_eq_true] at typed
  obtain ⟨⟨⟨⟨⟨⟨⟨idsm, sensor⟩, _⟩, _⟩, _⟩, _⟩, payload⟩, idsMessage⟩ := typed
  have named : ∀ {value : JsValue}, value.isNumber = true → SafeName value := by
    intro value isNumber
    cases value with
    | number number =>
        exact ⟨rfl, number.text, by rw [templateText], plain_of_tame number.tame_text,
          number.text_ne_empty⟩
    | _ => cases isNumber
  constructor
  · intro safe
    exact ⟨⟨safe.eventId, safe.count, safe.contextDataVersion, safe.payloadLen⟩, safe.receivedAt⟩
  · intro ⟨⟨eventId, count, version, payloadLen⟩, receivedAt⟩
    exact ⟨named idsm, named sensor, eventId, count, version, payloadLen, payload, idsMessage,
      receivedAt⟩

theorem severity_of_readViolation {body : JsValue} (read : readViolation body = some event) :
    event.severity ∈ validSeverities := by
  rw [readViolation] at read
  obtain ⟨_, _, read⟩ := Option.bind_eq_some_iff.mp read
  obtain ⟨_, _, read⟩ := Option.bind_eq_some_iff.mp read
  obtain ⟨_, _, read⟩ := Option.bind_eq_some_iff.mp read
  obtain ⟨_, _, read⟩ := Option.bind_eq_some_iff.mp read
  obtain ⟨_, _, read⟩ := Option.bind_eq_some_iff.mp read
  obtain ⟨severity, _, read⟩ := Option.bind_eq_some_iff.mp read
  obtain ⟨_, _, read⟩ := Option.bind_eq_some_iff.mp read
  obtain ⟨_, _, read⟩ := Option.bind_eq_some_iff.mp read
  obtain ⟨_, _, read⟩ := Option.bind_eq_some_iff.mp read
  split at read
  · split at read
    next valid =>
      cases read
      exact valid
    · cases read
  · cases read

end Lines

/-- The event of an accepted body is written as one faithful point exactly when its numbers are
whole and of 64 bits, its instances plain names and its texts strings. -/
theorem accepted_intact_iff (runtime : Runtime) (server : Server) (body : JsValue)
    (event : Violation) (receivedAtNs : Int) (accepted : server.accept body = some event) :
    Intact runtime event receivedAtNs ↔ Safe event receivedAtNs := by
  have valid : event.severity ∈ validSeverities := by
    cases server with
    | cloud => exact severity_of_readViolation (Option.filter_eq_some_iff.mp accepted).1
    | «local» => exact severity_of_readViolation accepted
  exact ⟨safe_of_intact valid, intact_of_safe valid⟩

/-! A fractional count, and an instance that names more tags. -/

def oneHalfMore : JsNumber := .finite false ⟨[1, 5], by decide, by decide, by decide, by decide⟩ 1

def two : JsNumber := .finite false ⟨[2], by decide, by decide, by decide, by decide⟩ 1

def runtimeSample : Runtime where
  utf8ToString _ := ""
  bufferFrom _ := none

def bodySample (instance' : JsValue) (count : JsNumber) : JsValue :=
  .object [("ids_message", .string "00"), ("idsm_instance_id", instance'),
    ("sensor_instance_id", .number .zero), ("event_id", .number two), ("count", .number count),
    ("severity", .string "LOW"), ("context_data_version", .number .zero), ("payload", .string "a\n\"b"),
    ("payload_len", .number .zero)]

def eventSample (instance' : JsValue) (count : JsNumber) : Violation :=
  ⟨.string "00", instance', .number .zero, .number two, .number count, "LOW", .number .zero,
    .string "a\n\"b", .number .zero⟩

theorem accept_bodySample (count : JsNumber) :
    Server.cloud.accept (bodySample (.number two) count) =
      some (eventSample (.number two) count) := by
  rfl

theorem accepted_intact_sample : Intact runtimeSample (eventSample (.number two) two) 5 := by
  refine (accepted_intact_iff runtimeSample .cloud (bodySample (.number two) two) _ 5
    (accept_bodySample two)).2 ((safe_iff_of_typed rfl).2 ⟨⟨?_, ?_, ?_, ?_⟩, by decide⟩)
  · exact ⟨two, 2, rfl, rfl, by decide⟩
  · exact ⟨two, 2, rfl, rfl, by decide⟩
  · exact ⟨.zero, 0, rfl, rfl, by decide⟩
  · exact ⟨.zero, 0, rfl, rfl, by decide⟩

/-- The cloud server writes `count=1.5i`, the local one two tags where one is meant. -/
theorem bodies_not_intact :
    (Server.cloud.accept (bodySample (.number two) oneHalfMore) =
        some (eventSample (.number two) oneHalfMore) ∧
      ¬ Intact runtimeSample (eventSample (.number two) oneHalfMore) 5) ∧
    (Server.local.accept (bodySample (.string "1,admin=yes") two) =
        some (eventSample (.string "1,admin=yes") two) ∧
      ¬ Intact runtimeSample (eventSample (.string "1,admin=yes") two) 5) := by
  refine ⟨⟨rfl, fun intact => ?_⟩, rfl, fun intact => ?_⟩
  · obtain ⟨_, _, same, whole, _⟩ := (safe_of_intact (by decide) intact).count
    cases same
    cases whole
  · obtain ⟨_, name, same, plain, _⟩ := (safe_of_intact (by decide) intact).idsmInstance
    rw [eventSample, templateText] at same
    rw [← Option.some.inj same] at plain
    exact absurd (plain.clean ',' (by decide)) (by decide)

end Idsm.Dashboard
