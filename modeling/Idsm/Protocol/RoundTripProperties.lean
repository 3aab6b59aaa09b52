import Idsm.Protocol.Decoder
import Idsm.Protocol.SerializerProperties

/-! A receiver recovers every serialized event whose fields fit their widths. -/

set_option autoImplicit false

namespace Idsm.Protocol

/-- The wire content of an event. -/
def QualifiedSecurityEvent.sent (qsev : QualifiedSecurityEvent) : DecodedMessage where
  protocolVersion := 2
  header := (if qsev.hasContext then 1 else 0) + (if qsev.hasTimestamp then 2 else 0)
  idsmInstanceId := qsev.idsmInstanceId.toNat
  sensorInstanceId := qsev.sensorInstanceId.toNat
  externalEventId := qsev.externalEventId.toNat
  count := qsev.count.toNat
  timestamp :=
    if qsev.hasTimestamp then
      some {
        source := qsev.timestamp.source
        nanoseconds := qsev.timestamp.nanoseconds.toNat
        seconds := qsev.timestamp.seconds.toNat }
    else none
  context :=
    if qsev.hasContext then
      some { version := qsev.contextDataVersion.toNat, data := qsev.context }
    else none

/-! The bytes as numbers. -/

section Bytes

private theorem and_mask (value bits : Nat) : value &&& (2 ^ bits - 1) = value % 2 ^ bits :=
  Nat.and_two_pow_sub_one_eq_mod _ _

theorem bigEndian_halves (word : UInt16) :
    bigEndian [(word >>> 8).toUInt8, (word &&& 0xFF).toUInt8] = word.toNat := by
  have bound := word.toNat_lt
  have low : ∀ value : Nat, value &&& 255 = value % 256 := fun value => and_mask value 8
  simp [bigEndian, low, Nat.shiftRight_eq_div_pow]
  omega

theorem bigEndian_quarters (long : UInt32) :
    bigEndian [(long >>> 24).toUInt8, ((long >>> 16) &&& 0xFF).toUInt8,
      ((long >>> 8) &&& 0xFF).toUInt8, (long &&& 0xFF).toUInt8] = long.toNat := by
  have bound := long.toNat_lt
  have low : ∀ value : Nat, value &&& 255 = value % 256 := fun value => and_mask value 8
  simp [bigEndian, low, Nat.shiftRight_eq_div_pow]
  omega

/-- The ten bits of the instance and the six of the sensor. -/
theorem bigEndian_instance {instanceId : UInt16} (sensor : UInt8) (narrow : instanceId.toNat < 1024) :
    bigEndian [(instanceId >>> 2).toUInt8,
        (((instanceId &&& 0x03) <<< 6) ||| (sensor &&& 0x3F).toUInt16).toUInt8] =
      instanceId.toNat * 64 + sensor.toNat % 64 := by
  have two : ∀ value : Nat, value &&& 3 = value % 4 := fun value => and_mask value 2
  have six : ∀ value : Nat, value &&& 63 = value % 64 := fun value => and_mask value 6
  have joined : (instanceId.toNat % 4) <<< 6 ||| sensor.toNat % 64 =
      instanceId.toNat % 4 * 64 + sensor.toNat % 64 := by
    rw [← Nat.shiftLeft_add_eq_or_of_lt (Nat.mod_lt _ (by decide)), Nat.shiftLeft_eq]
  have small : (instanceId.toNat % 4) <<< 6 % 256 = (instanceId.toNat % 4) <<< 6 := by
    rw [Nat.shiftLeft_eq]
    omega
  simp [bigEndian, two, six, Nat.shiftRight_eq_div_pow]
  rw [small, joined]
  omega

/-- A set bit 7 above seven further bits. -/
private theorem or_top {value : Nat} (small : value < 128) : 128 ||| value = 128 + value := by
  have shifted : (1 : Nat) <<< 7 = 128 := by decide
  rw [← shifted, Nat.shiftLeft_add_eq_or_of_lt small]

theorem bigEndian_nanoseconds {timestamp : TimestampData}
    (narrow : timestamp.nanoseconds.toNat < 2 ^ 30) :
    bigEndian ((timestampFrame timestamp).take 4) =
      (if timestamp.source = .oem then 2 ^ 31 else 0) + timestamp.nanoseconds.toNat := by
  have thirty : ∀ value : Nat, value &&& 1073741823 = value % 2 ^ 30 := fun value =>
    and_mask value 30
  have six : ∀ value : Nat, value &&& 63 = value % 64 := fun value => and_mask value 6
  have low : ∀ value : Nat, value &&& 255 = value % 256 := fun value => and_mask value 8
  have top : 128 ||| timestamp.nanoseconds.toNat % 1073741824 / 16777216 % 64 =
      128 + timestamp.nanoseconds.toNat % 1073741824 / 16777216 % 64 := or_top (by omega)
  cases source : timestamp.source with
  | autosar =>
      simp [timestampFrame, source, bigEndian, thirty, six, low, Nat.shiftRight_eq_div_pow]
      omega
  | oem =>
      simp [timestampFrame, source, bigEndian, thirty, six, low, Nat.shiftRight_eq_div_pow, top]
      omega

theorem bigEndian_longLength {contextSize : UInt16} (long : ¬ contextSize ≤ contextShortMax) :
    bigEndian (contextLengthField contextSize) = 2 ^ 31 + contextSize.toNat := by
  have bound := contextSize.toNat_lt
  have seven : ∀ value : Nat, value &&& 127 = value % 128 := fun value => and_mask value 7
  have low : ∀ value : Nat, value &&& 255 = value % 256 := fun value => and_mask value 8
  have top : 128 ||| contextSize.toNat / 16777216 % 128 =
      128 + contextSize.toNat / 16777216 % 128 := or_top (by omega)
  simp [contextLengthField, long, bigEndian, seven, low, Nat.shiftRight_eq_div_pow, top]
  omega

theorem bigEndian_lt_iff (first second third fourth : UInt8) :
    bigEndian [first, second, third, fourth] < 2 ^ 31 ↔ first.toNat < 128 := by
  have h1 := second.toNat_lt
  have h2 := third.toNat_lt
  have h3 := fourth.toNat_lt
  simp only [bigEndian, List.foldl_cons, List.foldl_nil]
  omega

end Bytes

/-! The frames. -/

theorem decodeTimestamp_frame {timestamp : TimestampData}
    (narrow : timestamp.nanoseconds.toNat < 2 ^ 30) (rest : List UInt8) :
    decodeTimestamp (timestampFrame timestamp ++ rest) =
      some (⟨timestamp.source, timestamp.nanoseconds.toNat, timestamp.seconds.toNat⟩, rest) := by
  have nanoseconds := bigEndian_nanoseconds narrow
  have seconds := bigEndian_quarters timestamp.seconds
  obtain ⟨first, second, third, fourth, frame⟩ : ∃ first second third fourth,
      timestampFrame timestamp = [first, second, third, fourth,
        (timestamp.seconds >>> 24).toUInt8, ((timestamp.seconds >>> 16) &&& 0xFF).toUInt8,
        ((timestamp.seconds >>> 8) &&& 0xFF).toUInt8, (timestamp.seconds &&& 0xFF).toUInt8] :=
    ⟨_, _, _, _, rfl⟩
  rw [frame] at nanoseconds ⊢
  simp only [List.take_succ_cons, List.take_zero] at nanoseconds
  have top := bigEndian_lt_iff first second third fourth
  rw [nanoseconds] at top
  simp only [List.cons_append, List.nil_append, decodeTimestamp, seconds, nanoseconds]
  cases source : timestamp.source with
  | autosar =>
      simp only [source, reduceCtorEq, if_false, Nat.zero_add] at top ⊢
      rw [if_pos (top.mp (by omega)), Nat.mod_eq_of_lt narrow]
  | oem =>
      simp only [source, if_true] at top ⊢
      rw [if_neg (fun small => absurd (top.mpr small) (by omega))]
      have reduced : (2 ^ 31 + timestamp.nanoseconds.toNat) % 2 ^ 30 =
          timestamp.nanoseconds.toNat := by omega
      rw [reduced]

theorem decodeLength_field (contextSize : UInt16) (rest : List UInt8) :
    decodeLength (contextLengthField contextSize ++ rest) = some (contextSize.toNat, rest) := by
  have bound := contextSize.toNat_lt
  by_cases short : contextSize ≤ contextShortMax
  · have small : contextSize.toNat ≤ 127 := by
      simpa [contextShortMax, UInt16.le_iff_toNat_le] using short
    have byte : contextSize.toUInt8.toNat = contextSize.toNat := by
      rw [UInt16.toNat_toUInt8]
      omega
    rw [contextLengthField, if_pos short, List.cons_append, List.nil_append]
    unfold decodeLength
    simp only [byte]
    rw [if_pos (by omega)]
  · have value := bigEndian_longLength short
    obtain ⟨first, second, third, fourth, field⟩ : ∃ first second third fourth,
        contextLengthField contextSize = [first, second, third, fourth] := by
      rw [contextLengthField, if_neg short]
      exact ⟨_, _, _, _, rfl⟩
    rw [field] at value ⊢
    have top := bigEndian_lt_iff first second third fourth
    rw [value] at top
    have reduced : (2 ^ 31 + contextSize.toNat) % 2 ^ 31 = contextSize.toNat := by omega
    simp only [List.cons_append, List.nil_append, decodeLength, value, reduced]
    rw [if_neg (fun small => absurd (top.mpr small) (by omega))]

theorem decodeContext_frame {qsev : QualifiedSecurityEvent} (included : qsev.hasContext = true)
    (rest : List UInt8) :
    decodeContext (contextFrame qsev ++ rest) =
      some (⟨qsev.contextDataVersion.toNat, qsev.context⟩, rest) := by
  have size := length_context included
  have version := bigEndian_halves qsev.contextDataVersion
  simp only [contextFrame, List.cons_append, List.nil_append, List.append_assoc, decodeContext,
    decodeLength_field, Option.bind_eq_bind, Option.bind_some]
  rw [if_pos (by rw [List.length_append]; omega), List.take_left' size, List.drop_left' size, version]

theorem toNat_headerByte (qsev : QualifiedSecurityEvent) :
    ((protocolVersion <<< 4) ||| header qsev).toNat = 32 + qsev.sent.header := by
  simp only [header, QualifiedSecurityEvent.sent]
  cases qsev.hasContext <;> cases qsev.hasTimestamp <;> decide

theorem decodeMessage_bytes {qsev : QualifiedSecurityEvent}
    (instanceId : qsev.idsmInstanceId.toNat < 1024) (sensor : qsev.sensorInstanceId.toNat < 64)
    (nanoseconds : qsev.hasTimestamp = true → qsev.timestamp.nanoseconds.toNat < 2 ^ 30)
    (rest : List UInt8) :
    decodeMessage (messageBytes qsev ++ rest) = some (qsev.sent, rest) := by
  have ids := bigEndian_instance qsev.sensorInstanceId instanceId
  have low : ∀ first second : UInt8, bigEndian [first, second] % 64 = second.toNat % 64 := by
    intro first second
    simp only [bigEndian, List.foldl_cons, List.foldl_nil]
    omega
  have instanceField : (qsev.idsmInstanceId.toNat * 64 + qsev.sensorInstanceId.toNat % 64) / 2 ^ 6 =
      qsev.idsmInstanceId.toNat := by omega
  have sensorField := low _ _ ▸ congrArg (· % 64) ids
  have sensorValue : (qsev.idsmInstanceId.toNat * 64 + qsev.sensorInstanceId.toNat % 64) % 64 =
      qsev.sensorInstanceId.toNat := by omega
  have flags : qsev.sent.header < 4 ∧ qsev.sent.header.testBit 0 = qsev.hasContext ∧
      qsev.sent.header.testBit 1 = qsev.hasTimestamp := by
    simp only [QualifiedSecurityEvent.sent]
    cases qsev.hasContext <;> cases qsev.hasTimestamp <;> decide
  have timestamp : decodeOptional qsev.hasTimestamp decodeTimestamp
      ((if qsev.hasTimestamp then timestampFrame qsev.timestamp else []) ++
        ((if qsev.hasContext then contextFrame qsev else []) ++ rest)) =
      some (qsev.sent.timestamp, (if qsev.hasContext then contextFrame qsev else []) ++ rest) := by
    cases stamped : qsev.hasTimestamp with
    | false => simp [decodeOptional, QualifiedSecurityEvent.sent, stamped]
    | true =>
        simp [decodeOptional, QualifiedSecurityEvent.sent, stamped,
          decodeTimestamp_frame (nanoseconds stamped)]
  have context : decodeOptional qsev.hasContext decodeContext
      ((if qsev.hasContext then contextFrame qsev else []) ++ rest) =
      some (qsev.sent.context, rest) := by
    cases included : qsev.hasContext with
    | false => simp [decodeOptional, QualifiedSecurityEvent.sent, included]
    | true =>
        simp [decodeOptional, QualifiedSecurityEvent.sent, included, decodeContext_frame included]
  rw [messageBytes, List.append_assoc, List.append_assoc, eventFrame]
  simp only [List.cons_append, List.nil_append, decodeMessage, toNat_headerByte]
  have split : (32 + qsev.sent.header) % 16 = qsev.sent.header ∧
      (32 + qsev.sent.header) / 16 = 2 := by omega
  rw [split.1, split.2, if_neg (by omega), flags.2.1, flags.2.2]
  simp only [timestamp, context, Option.bind_eq_bind, Option.bind_some, ids, instanceField,
    bigEndian_halves]
  have six : (2 : Nat) ^ 6 = 64 := by decide
  rw [six, sensorField, sensorValue]
  rfl

/-! The buffer. -/

private theorem foldl_consecutiveStores {offset : UInt16} {bytes buffer : List UInt8}
    (narrow : offset.toNat + bytes.length ≤ 65535) (roomy : offset.toNat + bytes.length ≤ buffer.length) :
    (consecutiveStores offset bytes).foldl (fun buffer store => buffer.set store.1.toNat store.2) buffer =
      buffer.take offset.toNat ++ bytes ++ buffer.drop (offset.toNat + bytes.length) := by
  induction bytes generalizing offset buffer with
  | nil => simp [consecutiveStores]
  | cons byte bytes ih =>
      rw [List.length_cons] at narrow roomy
      have next : (offset + 1).toNat = offset.toNat + 1 := by
        rw [UInt16.toNat_add]
        exact Nat.mod_eq_of_lt (by simp; omega)
      rw [consecutiveStores, List.foldl_cons, ih (by omega) (by rw [List.length_set]; omega), next,
        List.length_cons]
      have front : (buffer.set offset.toNat byte).take (offset.toNat + 1) =
          buffer.take offset.toNat ++ [byte] := by
        rw [List.take_add_one, List.take_set_of_le (Nat.le_refl _), List.getElem?_set_self (by omega)]
        rfl
      have back : (buffer.set offset.toNat byte).drop (offset.toNat + 1 + bytes.length) =
          buffer.drop (offset.toNat + (bytes.length + 1)) := by
        rw [List.drop_set_of_lt (by omega)]
        congr 1
        omega
      rw [front, back]
      simp

/-- An accepted call leaves the message at the front of the buffer. -/
theorem storedIn_serializeQSEv {qsev : QualifiedSecurityEvent} {bufferSize : UInt16}
    {buffer : List UInt8} (fits : messageSize qsev ≤ 65535)
    (roomy : messageSize qsev ≤ bufferSize.toNat) (sized : buffer.length = bufferSize.toNat) :
    (serializeQSEv (some qsev) true bufferSize).offset.toNat = messageSize qsev ∧
      (serializeQSEv (some qsev) true bufferSize).storedIn buffer =
        messageBytes qsev ++ buffer.drop (messageSize qsev) := by
  have size := toNat_getMessageSize qsev
  have positive := eight_le_messageSize qsev
  rw [Nat.mod_eq_of_lt (by omega)] at size
  have accepted : ¬ (getMessageSize (some qsev) = 0 ∨ bufferSize < getMessageSize (some qsev)) := by
    rintro (empty | short)
    · rw [empty, UInt16.toNat_zero] at size
      omega
    · rw [UInt16.lt_iff_toNat_lt] at short
      omega
  have length := length_messageBytes qsev
  rw [serializeQSEv_spec, if_neg accepted]
  constructor
  · rw [UInt16.toNat_ofNat']
    exact Nat.mod_eq_of_lt (by omega)
  · rw [Cursor.storedIn, foldl_consecutiveStores (by simp; omega) (by simp; omega)]
    simp [length]

/-- The claim of the round trip: the receiver reads back the event, and leaves what
stands behind the reported length. -/
def RoundTrips (qsev : QualifiedSecurityEvent) (bufferSize : UInt16) (buffer : List UInt8) : Prop :=
  let result := serializeQSEv (some qsev) true bufferSize
  result.offset.toNat = messageSize qsev ∧
    decodeMessage (result.storedIn buffer) =
      some (qsev.sent, (result.storedIn buffer).drop result.offset.toNat)

theorem serializeQSEv_roundTrips {qsev : QualifiedSecurityEvent} {bufferSize : UInt16}
    {buffer : List UInt8} (instanceId : qsev.idsmInstanceId.toNat < 2 ^ 10)
    (sensor : qsev.sensorInstanceId.toNat < 2 ^ 6)
    (nanoseconds : qsev.hasTimestamp = true → qsev.timestamp.nanoseconds.toNat < 2 ^ 30)
    (fits : messageSize qsev ≤ 65535) (roomy : messageSize qsev ≤ bufferSize.toNat)
    (sized : buffer.length = bufferSize.toNat) : RoundTrips qsev bufferSize buffer := by
  obtain ⟨offset, stored⟩ := storedIn_serializeQSEv fits roomy sized
  refine ⟨offset, ?_⟩
  rw [offset, stored, decodeMessage_bytes instanceId sensor nanoseconds,
    List.drop_left' (length_messageBytes qsev)]

section Samples

/-- An event of the given instance. -/
def eventSample (instanceId : UInt16) : QualifiedSecurityEvent where
  idsmInstanceId := instanceId
  externalEventId := 0x8001
  sensorInstanceId := 63
  severity := .low
  count := 1
  hasTimestamp := true
  timestamp := ⟨7, 999999999, .oem⟩
  contextDataVersion := 1
  contextData := some [0xAB]
  contextDataSize := 1
  readable := by
    intro bytes present
    cases present
    rfl

theorem serializeQSEv_roundTrips_sample :
    RoundTrips (eventSample 1023) 32 (List.replicate 32 0) :=
  serializeQSEv_roundTrips (by decide) (by decide) (by decide) (by decide) (by decide) (by decide)

/-- Of a wider instance id only ten bits are sent. -/
theorem serializeQSEv_truncates_instance :
    ¬ ∀ (qsev : QualifiedSecurityEvent) (bufferSize : UInt16) (buffer : List UInt8),
      qsev.sensorInstanceId.toNat < 2 ^ 6 →
      (qsev.hasTimestamp = true → qsev.timestamp.nanoseconds.toNat < 2 ^ 30) →
      messageSize qsev ≤ 65535 → messageSize qsev ≤ bufferSize.toNat →
      buffer.length = bufferSize.toNat → RoundTrips qsev bufferSize buffer := by
  intro claim
  have read := (claim (eventSample 1024) 32 (List.replicate 32 0) (by decide) (by decide) (by decide)
    (by decide) (by decide)).2
  exact absurd read (by decide)

end Samples

end Idsm.Protocol
