import Idsm.Protocol.Serializer

/-! Buffer bounds and returned lengths of the wire serializer. Both follow from
one description of an accepted call: the message bytes, stored at consecutive
`uint16` offsets from zero. -/

set_option autoImplicit false

namespace Idsm.Protocol

/-- The stores of consecutive bytes from a `uint16` offset, wrapping at its end. -/
def consecutiveStores (offset : UInt16) : List UInt8 → List (UInt16 × UInt8)
  | [] => []
  | byte :: bytes => (offset, byte) :: consecutiveStores (offset + 1) bytes

/-- The message an accepted call writes, frame after frame. -/
def messageBytes (qsev : QualifiedSecurityEvent) : List UInt8 :=
  eventFrame qsev ++
    (if qsev.hasTimestamp then timestampFrame qsev.timestamp else []) ++
    (if qsev.hasContext then contextFrame qsev else [])

/-- The exact message size, without any truncation to `uint16`. -/
def messageSize (qsev : QualifiedSecurityEvent) : Nat :=
  8 + (if qsev.hasTimestamp then 8 else 0) +
    (if qsev.hasContext then
      2 + (if qsev.contextDataSize.toNat ≤ 127 then 1 else 4) + qsev.contextDataSize.toNat
    else 0)

@[simp] theorem Cursor.putAll_nil (cursor : Cursor) : cursor.putAll [] = cursor := rfl

theorem Cursor.putAll_append (cursor : Cursor) (first second : List UInt8) :
    cursor.putAll (first ++ second) = (cursor.putAll first).putAll second := by
  simp [Cursor.putAll, List.foldl_append]

theorem Cursor.putAll_eq (cursor : Cursor) (bytes : List UInt8) :
    cursor.putAll bytes =
      ⟨cursor.offset + UInt16.ofNat bytes.length,
        cursor.stores ++ consecutiveStores cursor.offset bytes⟩ := by
  induction bytes generalizing cursor with
  | nil => simp [Cursor.putAll, consecutiveStores]
  | cons byte bytes ih =>
      have step : cursor.putAll (byte :: bytes) = (cursor.put byte).putAll bytes := rfl
      rw [step, ih]
      simp [Cursor.put, consecutiveStores, UInt16.add_assoc, UInt16.add_comm 1]

theorem mem_consecutiveStores {offset index : UInt16} {byte : UInt8} {bytes : List UInt8}
    (member : (index, byte) ∈ consecutiveStores offset bytes) :
    ∃ position, position < bytes.length ∧ index = offset + UInt16.ofNat position := by
  induction bytes generalizing offset with
  | nil => simp [consecutiveStores] at member
  | cons head bytes ih =>
      simp only [consecutiveStores, List.mem_cons, Prod.mk.injEq] at member
      rcases member with ⟨rfl, _⟩ | later
      · exact ⟨0, by simp, by simp⟩
      · obtain ⟨position, inside, rfl⟩ := ih later
        refine ⟨position + 1, by simpa using inside, ?_⟩
        simp [UInt16.add_assoc, UInt16.add_comm 1]

theorem exists_mem_consecutiveStores (offset : UInt16) {bytes : List UInt8} {position : Nat}
    (inside : position < bytes.length) :
    ∃ byte, (offset + UInt16.ofNat position, byte) ∈ consecutiveStores offset bytes := by
  induction bytes generalizing offset position with
  | nil => simp at inside
  | cons head bytes ih =>
      cases position with
      | zero => exact ⟨head, by simp [consecutiveStores]⟩
      | succ position =>
          obtain ⟨byte, member⟩ := ih (offset + 1) (by simpa using inside)
          refine ⟨byte, ?_⟩
          rw [consecutiveStores]
          apply List.mem_cons_of_mem
          simpa [UInt16.add_assoc, UInt16.add_comm 1] using member

@[simp] theorem length_eventFrame (qsev : QualifiedSecurityEvent) :
    (eventFrame qsev).length = 8 := rfl

@[simp] theorem length_timestampFrame (timestamp : TimestampData) :
    (timestampFrame timestamp).length = 8 := rfl

theorem length_contextLengthField (contextSize : UInt16) :
    (contextLengthField contextSize).length = if contextSize.toNat ≤ 127 then 1 else 4 := by
  have threshold : contextSize ≤ contextShortMax ↔ contextSize.toNat ≤ 127 := by
    simp [contextShortMax, UInt16.le_iff_toNat_le]
  unfold contextLengthField
  by_cases short : contextSize ≤ contextShortMax
  · simp [short, threshold.mp short]
  · have long : ¬ contextSize.toNat ≤ 127 := fun bound => short (threshold.mpr bound)
    simp [short, long]

theorem length_context {qsev : QualifiedSecurityEvent} (included : qsev.hasContext = true) :
    qsev.context.length = qsev.contextDataSize.toNat := by
  simp only [QualifiedSecurityEvent.hasContext, Bool.and_eq_true, Option.isSome_iff_exists] at included
  obtain ⟨⟨bytes, present⟩, _⟩ := included
  simpa [QualifiedSecurityEvent.context, present] using qsev.readable bytes present

theorem length_messageBytes (qsev : QualifiedSecurityEvent) :
    (messageBytes qsev).length = messageSize qsev := by
  unfold messageBytes messageSize
  cases stamped : qsev.hasTimestamp <;> cases included : qsev.hasContext <;>
    simp [contextFrame, length_contextLengthField, length_context, included] <;> omega

/-- The `uint16` size is the exact size modulo `2^16`. -/
theorem toNat_getMessageSize (qsev : QualifiedSecurityEvent) :
    (getMessageSize (some qsev)).toNat = messageSize qsev % 65536 := by
  have threshold : qsev.contextDataSize ≤ contextShortMax ↔ qsev.contextDataSize.toNat ≤ 127 := by
    simp [contextShortMax, UInt16.le_iff_toNat_le]
  simp only [getMessageSize, messageSize, contextLengthFieldSize, threshold]
  cases qsev.hasTimestamp <;> cases qsev.hasContext <;>
    by_cases short : qsev.contextDataSize.toNat ≤ 127 <;>
    simp [short, eventFrameSize, timestampSize, UInt16.toNat_add] <;> omega

theorem messageSize_lt (qsev : QualifiedSecurityEvent) : messageSize qsev < 2 * 65536 := by
  have bound := qsev.contextDataSize.toNat_lt
  unfold messageSize
  split <;> split <;> try split
  all_goals omega

theorem eight_le_messageSize (qsev : QualifiedSecurityEvent) : 8 ≤ messageSize qsev := by
  unfold messageSize
  omega

/-- What the serializer does, whatever the buffer: either it stops before any
store, or it stores the whole message at consecutive wrapping offsets. -/
theorem serializeQSEv_spec (qsev : QualifiedSecurityEvent) (bufferSize : UInt16) :
    serializeQSEv (some qsev) true bufferSize =
      if getMessageSize (some qsev) = 0 ∨ bufferSize < getMessageSize (some qsev) then ⟨0, []⟩
      else ⟨UInt16.ofNat (messageSize qsev), consecutiveStores 0 (messageBytes qsev)⟩ := by
  simp only [serializeQSEv, Bool.true_eq_false, ↓reduceIte]
  split
  · rfl
  · have whole : Cursor.putAll ⟨0, []⟩ (messageBytes qsev) =
        ⟨UInt16.ofNat (messageSize qsev), consecutiveStores 0 (messageBytes qsev)⟩ := by
      rw [Cursor.putAll_eq, length_messageBytes]
      simp
    rw [← whole]
    unfold messageBytes
    cases qsev.hasTimestamp <;> cases qsev.hasContext <;>
      simp [Cursor.putAll_append]

/-- Every store of a call is inside the buffer, and a call that reports success
returns the exact message size. -/
def SafeAndExact (qsev : QualifiedSecurityEvent) (bufferSize : UInt16) (result : Cursor) : Prop :=
  (∀ store ∈ result.stores, store.1 < bufferSize) ∧
    (result.offset ≠ 0 → result.offset.toNat = messageSize qsev)

@[simp] theorem safeAndExact_stopped (qsev : QualifiedSecurityEvent) (bufferSize : UInt16) :
    SafeAndExact qsev bufferSize ⟨0, []⟩ := by
  simp [SafeAndExact]

theorem safeAndExact_of_fits {qsev : QualifiedSecurityEvent} {bufferSize : UInt16}
    (fits : messageSize qsev ≤ 65535) (roomy : ¬ bufferSize < getMessageSize (some qsev)) :
    SafeAndExact qsev bufferSize
      ⟨UInt16.ofNat (messageSize qsev), consecutiveStores 0 (messageBytes qsev)⟩ := by
  have exact := toNat_getMessageSize qsev
  rw [UInt16.lt_iff_toNat_lt] at roomy
  constructor
  · rintro ⟨index, byte⟩ member
    obtain ⟨position, inside, rfl⟩ := mem_consecutiveStores member
    rw [length_messageBytes] at inside
    simp only [UInt16.lt_iff_toNat_lt, UInt16.zero_add, UInt16.toNat_ofNat']
    omega
  · intro _
    simp only [UInt16.toNat_ofNat']
    omega

/-- A message longer than `2^16` bytes stores at every offset, the last included. -/
theorem not_safeAndExact_of_wraps {qsev : QualifiedSecurityEvent} (bufferSize : UInt16)
    (wraps : 65536 < messageSize qsev) :
    ¬ SafeAndExact qsev bufferSize
      ⟨UInt16.ofNat (messageSize qsev), consecutiveStores 0 (messageBytes qsev)⟩ := by
  rintro ⟨bounded, _⟩
  have inside : 65535 < (messageBytes qsev).length := by
    rw [length_messageBytes]
    omega
  obtain ⟨byte, member⟩ := exists_mem_consecutiveStores 0 inside
  have below := bounded _ member
  have width := bufferSize.toNat_lt
  simp only [UInt16.lt_iff_toNat_lt, UInt16.zero_add, UInt16.toNat_ofNat'] at below
  omega

/-- The serializer keeps to its buffer and reports the exact size exactly when
the message does not exceed `2^16` bytes, or the wrapped size is already too
large for the buffer. -/
theorem serializeQSEv_safeAndExact_iff (qsev : QualifiedSecurityEvent) :
    (∀ bufferSize : UInt16,
      SafeAndExact qsev bufferSize (serializeQSEv (some qsev) true bufferSize) ↔
        messageSize qsev ≤ 65536 ∨ bufferSize.toNat < messageSize qsev - 65536) ∧
    (SafeAndExact qsev (buildWireMessage qsev).capacity (buildWireMessage qsev).written ↔
      messageSize qsev ≤ 65536) := by
  have exact := toNat_getMessageSize qsev
  have small := messageSize_lt qsev
  have direct : ∀ bufferSize : UInt16,
      SafeAndExact qsev bufferSize (serializeQSEv (some qsev) true bufferSize) ↔
        messageSize qsev ≤ 65536 ∨ bufferSize.toNat < messageSize qsev - 65536 := by
    intro bufferSize
    rw [serializeQSEv_spec]
    split
    case isTrue stopped =>
      simp only [safeAndExact_stopped, true_iff]
      rcases stopped with empty | short
      · simp only [empty, UInt16.toNat_zero] at exact
        omega
      · rw [UInt16.lt_iff_toNat_lt] at short
        omega
    case isFalse accepted =>
      obtain ⟨nonzero, roomy⟩ := not_or.mp accepted
      have positive : (getMessageSize (some qsev)).toNat ≠ 0 := fun zero =>
        nonzero (UInt16.toNat_inj.mp zero)
      constructor
      · intro safe
        by_contra wraps
        exact not_safeAndExact_of_wraps bufferSize (by omega) safe
      · intro bounds
        rw [UInt16.lt_iff_toNat_lt] at roomy
        exact safeAndExact_of_fits (by omega) (by rwa [UInt16.lt_iff_toNat_lt])
  refine ⟨direct, ?_⟩
  by_cases empty : getMessageSize (some qsev) = 0
  · simp only [buildWireMessage, empty, ↓reduceIte, safeAndExact_stopped, true_iff]
    simp only [empty, UInt16.toNat_zero] at exact
    omega
  · simp only [buildWireMessage, empty, ↓reduceIte]
    rw [direct]
    omega

/-- A timestamped event with the largest context: its size wraps to 21. -/
def largestEvent : QualifiedSecurityEvent where
  idsmInstanceId := 0
  externalEventId := 0x8001
  sensorInstanceId := 0
  severity := .low
  count := 1
  hasTimestamp := true
  timestamp := ⟨0, 0, .autosar⟩
  contextDataVersion := 1
  contextData := some (List.replicate 65535 0)
  contextDataSize := 65535
  readable := by
    intro bytes present
    cases present
    exact List.length_replicate

theorem serializeQSEv_overruns_largestEvent :
    ¬ (∀ (qsev : QualifiedSecurityEvent) (bufferSize : UInt16),
      SafeAndExact qsev bufferSize (serializeQSEv (some qsev) true bufferSize)) := by
  intro claim
  have included : largestEvent.hasContext = true := rfl
  have size : messageSize largestEvent = 65557 := by
    rw [messageSize, included]
    rfl
  have accepted := claim largestEvent 21
  rw [serializeQSEv_spec, if_neg] at accepted
  · exact not_safeAndExact_of_wraps 21 (by omega) accepted
  · have required := toNat_getMessageSize largestEvent
    rw [size] at required
    rw [UInt16.lt_iff_toNat_lt, ← UInt16.toNat_inj, required]
    decide

end Idsm.Protocol
