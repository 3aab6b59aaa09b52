import Idsm.EthProbe.Bytes
import Idsm.EthProbe.UdpProtocols

/-! What the service discovery makes of a datagram lies inside the length its header declares,
unless an entries array that is longer than that fits into the datagram. -/

set_option autoImplicit false

namespace Idsm.EthProbe

section Length

variable {data message more : List UInt8}

/-- The bytes that the header declares: eight in front of the length and those it counts. -/
def declaredLength (data : List UInt8) : Nat := 8 + (rd32 data 4).toNat

/-- The datagram without what follows the declared length. -/
def someipMessage (data : List UInt8) : List UInt8 := data.take (declaredLength data)

/-- A message of the service discovery with a sound header. -/
def IsSdMessage (data : List UInt8) : Prop :=
  (parseSomeip data).valid = true ∧ (parseSomeip data).isSd = true

instance : DecidablePred IsSdMessage := fun data =>
  inferInstanceAs (Decidable ((parseSomeip data).valid = true ∧ (parseSomeip data).isSd = true))

/-- The tracker says the same of the message alone, and no entry that is read reaches beyond
it. -/
structure LengthHonoured (data : List UInt8) : Prop where
  same : ∀ whitelist sessions srcIp,
    inspectSd whitelist sessions (parseSomeip data) srcIp =
      inspectSd whitelist sessions (parseSomeip (someipMessage data)) srcIp
  inside : ∀ entries, parseSdEntries (data.drop 16) = some entries → entries ≠ [] →
    16 + 8 + 16 * entries.length ≤ declaredLength data

/-- The size of the entries array as the payload states it. -/
def entriesLength (data : List UInt8) : Nat := (rd32 (data.drop 16) 4).toNat

/-- An entries array that is read at all ends inside the declared length. -/
def EntriesFit (data : List UInt8) : Prop :=
  entriesLength data = 0 ∨ entriesLength data % 16 ≠ 0 ∨
    data.length < 16 + 8 + entriesLength data ∨
    16 + 8 + entriesLength data ≤ declaredLength data

/-- The header of a datagram, whether it is sound or not. -/
def someipHeader (data : List UInt8) : SomeipInfo where
  valid := true
  serviceId := rd16 data 0
  methodId := rd16 data 2
  clientId := rd16 data 8
  sessionId := rd16 data 10
  ifaceVer := byteAt data 13
  msgType := byteAt data 14
  returnCode := byteAt data 15
  payload := data.drop 16
  error := .ok

/-- A header is sound when all it declares is there, with a known version and type. -/
structure SoundHeader (data : List UInt8) : Prop where
  long : 16 ≤ data.length
  declared : 16 ≤ declaredLength data
  covered : declaredLength data ≤ data.length
  version : byteAt data 12 = 1
  known : knownMsgType (byteAt data 14) = true

theorem SoundHeader.parse (sound : SoundHeader data) : parseSomeip data = someipHeader data := by
  have long := sound.long
  have declared := sound.declared
  have covered := sound.covered
  rw [declaredLength] at declared covered
  have fits : ¬ ((rd32 data 4).toNat < 8 ∨ (data.drop 16).length < (rd32 data 4).toNat - 8) := by
    rw [List.length_drop]
    omega
  have type : ¬ knownMsgType (byteAt data 14) = false := by
    rw [sound.known]
    exact Bool.noConfusion
  rw [parseSomeip, if_neg (Nat.not_lt.mpr long)]
  dsimp only
  rw [if_neg fits, if_neg (not_not_intro sound.version), if_neg type]
  rfl

theorem soundHeader_of_valid (valid : (parseSomeip data).valid = true) : SoundHeader data := by
  rw [parseSomeip] at valid
  split at valid
  next => exact nomatch valid
  next long =>
    dsimp only at valid
    split at valid
    next => exact nomatch valid
    next covered =>
      split at valid
      next => exact nomatch valid
      next version =>
        split at valid
        next => exact nomatch valid
        next known =>
          rw [List.length_drop] at covered
          refine ⟨Nat.le_of_not_lt long, ?_, ?_, not_not.mp version,
            (Bool.not_eq_false _).mp known⟩
          · rw [declaredLength]
            omega
          · rw [declaredLength]
            omega

theorem length_someipMessage (sound : SoundHeader data) :
    (someipMessage data).length = declaredLength data :=
  List.length_take_of_le sound.covered

theorem someipHeader_append (long : 16 ≤ message.length) : someipHeader (message ++ more) =
    { someipHeader message with payload := message.drop 16 ++ more } := by
  rw [someipHeader, rd16_append (by omega), rd16_append (by omega), rd16_append (by omega),
    rd16_append (by omega), byteAt_append (by omega), byteAt_append (by omega),
    byteAt_append (by omega), List.drop_append_of_le_length long]
  rfl

theorem soundHeader_of_append (long : 16 ≤ message.length)
    (declared : declaredLength (message ++ more) = message.length)
    (sound : SoundHeader (message ++ more)) : SoundHeader message := by
  have same : declaredLength message = message.length := by
    rw [← declared, declaredLength, declaredLength, rd32_append (by omega)]
  have version := sound.version
  have known := sound.known
  rw [byteAt_append (by omega)] at version known
  exact ⟨long, by omega, by omega, version, known⟩

theorem sdEntryAt_append {front rest : List UInt8} {off : Nat} (inside : off + 16 ≤ front.length) :
    sdEntryAt (front ++ rest) off = sdEntryAt front off := by
  rw [sdEntryAt, sdEntryAt, byteAt_append (by omega), rd16_append (by omega),
    rd16_append (by omega), byteAt_append (by omega), byteAt_append (by omega),
    byteAt_append (by omega)]

/-- An entries array inside the payload is the same with more bytes behind the payload. -/
theorem parseSdEntries_append {payload : List UInt8} (long : 8 ≤ payload.length)
    (inside : 8 + (rd32 payload 4).toNat ≤ payload.length) :
    parseSdEntries (payload ++ more) = parseSdEntries payload := by
  have total : (payload ++ more).length = payload.length + more.length := List.length_append
  have longWhole : ¬ (payload ++ more).length < 8 := by omega
  rw [parseSdEntries, parseSdEntries, rd32_append (by omega), if_neg longWhole,
    if_neg (Nat.not_lt.mpr long)]
  dsimp only
  by_cases odd : (rd32 payload 4).toNat % 16 ≠ 0
  · rw [if_pos (.inr odd), if_pos (.inr odd)]
  · have even : (rd32 payload 4).toNat % 16 = 0 := not_not.mp odd
    rw [if_neg (by omega), if_neg (by omega)]
    congr 1
    apply List.map_congr_left
    intro index member
    have below := List.mem_range.mp member
    rw [List.drop_append_of_le_length long, sdEntryAt_append]
    rw [List.length_drop]
    omega

theorem parseSdEntries_none {payload : List UInt8}
    (unfit : payload.length < 8 + (rd32 payload 4).toNat ∨ (rd32 payload 4).toNat % 16 ≠ 0) :
    parseSdEntries payload = none := by
  rw [parseSdEntries]
  split
  next => rfl
  next long =>
    dsimp only
    rw [if_pos]
    omega

theorem parseSdEntries_zero {payload : List UInt8} (zero : (rd32 payload 4).toNat = 0) :
    (parseSdEntries payload).getD [] = [] := by
  rw [parseSdEntries]
  split
  next => rfl
  next =>
    dsimp only
    rw [zero]
    split
    next => rfl
    next => rfl

theorem entriesLength_append (long : 16 ≤ message.length) :
    entriesLength (message ++ more) = (rd32 (message.drop 16 ++ more) 4).toNat := by
  rw [entriesLength, List.drop_append_of_le_length long]

/-- What fits is the same in the message alone. -/
theorem entries_same (long : 16 ≤ message.length)
    (declared : declaredLength (message ++ more) = message.length)
    (fit : EntriesFit (message ++ more)) :
    (parseSdEntries (message.drop 16 ++ more)).getD [] =
      (parseSdEntries (message.drop 16)).getD [] := by
  have size : (message.drop 16).length = message.length - 16 := List.length_drop
  have total : (message ++ more).length = message.length + more.length := List.length_append
  have whole : (message.drop 16 ++ more).length = message.length - 16 + more.length := by
    rw [List.length_append, size]
  rw [EntriesFit, entriesLength_append long, declared] at fit
  obtain short | payload := Nat.lt_or_ge (message.drop 16).length 8
  · have nothing : parseSdEntries (message.drop 16) = none := by
      rw [parseSdEntries, if_pos short]
    rw [nothing]
    rcases fit with zero | odd | beyond | inside
    · exact parseSdEntries_zero zero
    · rw [parseSdEntries_none (.inr odd)]
    · rw [parseSdEntries_none (.inl (by omega))]
    · omega
  · have same : rd32 (message.drop 16 ++ more) 4 = rd32 (message.drop 16) 4 :=
      rd32_append (by omega)
    have number : (rd32 (message.drop 16 ++ more) 4).toNat = (rd32 (message.drop 16) 4).toNat := by
      rw [same]
    rcases fit with zero | odd | beyond | inside
    · rw [parseSdEntries_zero zero, parseSdEntries_zero (number.symm.trans zero)]
    · have alone := @parseSdEntries_none (message.drop 16) (.inr (by omega))
      rw [parseSdEntries_none (.inr odd), alone]
    · have alone := @parseSdEntries_none (message.drop 16) (.inl (by omega))
      rw [parseSdEntries_none (.inl (by omega)), alone]
    · rw [parseSdEntries_append payload (by omega)]

theorem parsed_length {payload : List UInt8} {entries : List SdEntry}
    (parsed : parseSdEntries payload = some entries) : 8 ≤ payload.length ∧
      8 + (rd32 payload 4).toNat ≤ payload.length ∧
      16 * entries.length = (rd32 payload 4).toNat := by
  rw [parseSdEntries] at parsed
  split at parsed
  next => exact nomatch parsed
  next long =>
    dsimp only at parsed
    split at parsed
    next => exact nomatch parsed
    next fits =>
      obtain rfl := Option.some.inj parsed
      rw [List.length_map, List.length_range]
      omega

theorem inspectSd_congr {first second : SomeipInfo} {whitelist : ServiceWhitelist}
    {sessions : SdSessions} {srcIp : List UInt8} (valid : first.valid = second.valid)
    (service : first.serviceId = second.serviceId) (session : first.sessionId = second.sessionId)
    (entries : (parseSdEntries first.payload).getD [] = (parseSdEntries second.payload).getD []) :
    inspectSd whitelist sessions first srcIp = inspectSd whitelist sessions second srcIp := by
  have isSd : first.isSd = second.isSd := by rw [SomeipInfo.isSd, SomeipInfo.isSd, service]
  have ignored : (first.valid = false ∨ first.isSd = false) ↔
      (second.valid = false ∨ second.isSd = false) := by rw [valid, isSd]
  rw [inspectSd, inspectSd, session, entries]
  by_cases skipped : second.valid = false ∨ second.isSd = false
  · rw [if_pos skipped, if_pos (ignored.2 skipped)]
  · rw [if_neg skipped, if_neg (mt ignored.1 skipped)]

theorem honoured_of_fit (long : 16 ≤ message.length)
    (declared : declaredLength (message ++ more) = message.length)
    (sound : SoundHeader (message ++ more)) (fit : EntriesFit (message ++ more)) :
    LengthHonoured (message ++ more) := by
  have alone : someipMessage (message ++ more) = message := by
    rw [someipMessage, declared, List.take_left]
  have entries := entries_same long declared fit
  rw [← List.drop_append_of_le_length long] at entries
  refine ⟨fun whitelist sessions srcIp => ?_, fun entries read some => ?_⟩
  · rw [alone, sound.parse, (soundHeader_of_append long declared sound).parse,
      someipHeader_append long]
    rw [List.drop_append_of_le_length long] at entries
    exact inspectSd_congr rfl rfl rfl entries
  · obtain ⟨_, fits, count⟩ := parsed_length read
    have nonempty := List.length_pos_iff.mpr some
    rw [← entriesLength] at fits count
    rw [List.length_drop] at fits
    rw [EntriesFit] at fit
    omega

theorem fit_of_inside (long : 16 ≤ data.length)
    (inside : ∀ entries, parseSdEntries (data.drop 16) = some entries → entries ≠ [] →
      16 + 8 + 16 * entries.length ≤ declaredLength data) : EntriesFit data := by
  by_contra unfit
  rw [EntriesFit, not_or, not_or, not_or, not_not] at unfit
  obtain ⟨some, even, fits, beyond⟩ := unfit
  have total : (data.drop 16).length = data.length - 16 := List.length_drop
  cases read : parseSdEntries (data.drop 16) with
  | none =>
      rw [parseSdEntries, if_neg (by omega)] at read
      dsimp only at read
      rw [← entriesLength, if_neg (by omega)] at read
      exact nomatch read
  | some entries =>
      obtain ⟨_, _, count⟩ := parsed_length read
      rw [← entriesLength] at count
      have reach := inside entries read (by
        intro none
        rw [none] at count
        exact some count.symm)
      omega

/-- The declared length is honoured exactly when an entries array that is read ends inside it. -/
theorem lengthHonoured_iff (sd : IsSdMessage data) : LengthHonoured data ↔ EntriesFit data := by
  have sound := soundHeader_of_valid sd.1
  constructor
  · intro honoured
    exact fit_of_inside sound.long honoured.inside
  · intro fit
    have split : someipMessage data ++ data.drop (declaredLength data) = data :=
      List.take_append_drop _ _
    have length := length_someipMessage sound
    have declared := sound.declared
    rw [← length] at declared
    generalize data.drop (declaredLength data) = more at split
    generalize someipMessage data = message at split length declared
    subst split
    exact honoured_of_fit declared length.symm sound fit

/-- One offer inside the declared length, and a second message behind it. -/
def soundOffer : List UInt8 :=
  [0xFF, 0xFF, 0x81, 0x00, 0, 0, 0, 32, 0, 0, 0, 1, 1, 1, 2, 0,
    0, 0, 0, 0, 0, 0, 0, 16,
    1, 0, 0, 0, 0x12, 0x34, 0, 1, 1, 0, 0, 3, 0, 0, 0, 0,
    0xFF, 0xFF, 0x81, 0x00]

theorem lengthHonoured_sample : LengthHonoured soundOffer :=
  (lengthHonoured_iff (by decide)).2 (.inr (.inr (.inr (by decide))))

/-- The header declares an SD payload of eight bytes; the offer it announces stands behind it. -/
def lyingOffer : List UInt8 :=
  [0xFF, 0xFF, 0x81, 0x00, 0, 0, 0, 16, 0, 0, 0, 1, 1, 1, 2, 0,
    0, 0, 0, 0, 0, 0, 0, 16,
    1, 0, 0, 0, 0x12, 0x34, 0, 1, 1, 0, 0, 3, 0, 0, 0, 0]

/-- The bytes behind the declared length raise an alert. -/
theorem offer_behind_declared_length : IsSdMessage lyingOffer ∧
    (inspectSd [0x9999] [] (parseSomeip lyingOffer) []).2 = [0x2234] ∧
    (inspectSd [0x9999] [] (parseSomeip (someipMessage lyingOffer)) []).2 = [] ∧
    ¬ LengthHonoured lyingOffer := by
  have alert : (inspectSd [0x9999] [] (parseSomeip lyingOffer) []).2 = [0x2234] := by decide
  have silence : (inspectSd [0x9999] [] (parseSomeip (someipMessage lyingOffer)) []).2 = [] := by
    decide
  refine ⟨by decide, alert, silence, fun honoured => ?_⟩
  rw [honoured.same, silence] at alert
  exact nomatch alert

end Length

end Idsm.EthProbe
