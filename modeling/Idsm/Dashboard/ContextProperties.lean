import Idsm.Dashboard.Context
import Idsm.Protocol.RoundTripProperties

/-! What the shown context tells of an alert. Every field is recovered; the version of an
address is not among them. -/

set_option autoImplicit false

namespace Idsm.Dashboard

open Idsm.Protocol (bigEndian)
open Idsm.EthProbe (ReportedAlert SeenAlert IpAddress serializeContext be16 be32)

/-! Texts joined by a mark. -/

section Joined

variable (mark : Char) {parts more : List String}

theorem parts_of_joined (some : parts ≠ []) (some' : more ≠ [])
    (clean : ∀ part ∈ parts, mark ∉ part.toList) (clean' : ∀ part ∈ more, mark ∉ part.toList)
    (same : (String.singleton mark).intercalate parts =
      (String.singleton mark).intercalate more) : parts = more := by
  have split := String.toList_split_intercalate clean
  rwa [same, String.toList_split_intercalate clean', if_neg some, if_neg some', eq_comm] at split

theorem not_mem_joined {other : Char} (different : other ≠ mark) (clean : ∀ part ∈ parts, other ∉ part.toList) :
    other ∉ ((String.singleton mark).intercalate parts).toList := by
  induction parts with
  | nil => simp
  | cons part rest ih =>
      cases rest with
      | nil => simpa [String.intercalate_singleton] using clean part
      | cons next rest =>
          have later := ih fun part member => clean part (List.mem_cons_of_mem _ member)
          simp only [String.intercalate_cons_cons, String.toList_append, String.toList_singleton,
            List.mem_append, List.mem_singleton, not_or]
          exact ⟨⟨clean part List.mem_cons_self, different⟩, later⟩

theorem mem_joined (first second : String) (rest : List String) :
    mark ∈ ((String.singleton mark).intercalate (first :: second :: rest)).toList := by
  rw [String.intercalate_cons_cons]
  simp

end Joined

/-! Numbers as texts. -/

section Digits

variable {base : Nat}

private theorem digitChar_injective :
    ∀ first < 16, ∀ second < 16, Nat.digitChar first = Nat.digitChar second → first = second := by
  decide

theorem toDigits_injective (wide : 1 < base) (narrow : base ≤ 16) (first second : Nat)
    (same : Nat.toDigits base first = Nat.toDigits base second) : first = second := by
  induction first using Nat.strongRecOn generalizing second with
  | ind first ih =>
      rw [Nat.toDigits_eq_if wide, Nat.toDigits_eq_if wide (n := second)] at same
      have lastDigit : ∀ number, number % base < 16 := fun number =>
        Nat.lt_of_lt_of_le (Nat.mod_lt _ (by omega)) narrow
      split at same
      next small =>
        split at same
        next small' =>
          exact digitChar_injective _ (by omega) _ (by omega) (List.singleton_inj.mp same)
        next large' =>
          have lengths := congrArg List.length same
          have positive := Nat.length_toDigits_pos (b := base) (n := second / base)
          simp only [List.length_append, List.length_singleton] at lengths
          omega
      next large =>
        split at same
        next small' =>
          have lengths := congrArg List.length same
          have positive := Nat.length_toDigits_pos (b := base) (n := first / base)
          simp only [List.length_append, List.length_singleton] at lengths
          omega
        next large' =>
          obtain ⟨front, back⟩ := List.append_inj' same rfl
          have smaller : first / base < first := Nat.div_lt_self (by omega) wide
          have high := ih _ smaller _ front
          have low := digitChar_injective _ (lastDigit first) _ (lastDigit second)
            (List.singleton_inj.mp back)
          rw [← Nat.div_add_mod first base, ← Nat.div_add_mod second base, high, low]

theorem toString_injective {first second : Nat} (same : toString first = toString second) :
    first = second := by
  have texts := congrArg String.toList same
  rw [Nat.toString_eq_ofList_toDigits, Nat.toString_eq_ofList_toDigits, String.toList_ofList,
    String.toList_ofList] at texts
  exact toDigits_injective (by decide) (by decide) first second texts

theorem hexText_injective {first second : Nat} (same : hexText first = hexText second) :
    first = second := by
  have texts := congrArg String.toList same
  rw [hexText, hexText, String.toList_ofList, String.toList_ofList] at texts
  exact toDigits_injective (by decide) (by decide) first second texts

private theorem digitChar_no_mark : ∀ digit < 16, Nat.digitChar digit ≠ ':' ∧
    Nat.digitChar digit ≠ '.' := by
  decide

theorem no_mark_of_toDigits (wide : 1 < base) (narrow : base ≤ 16) (number : Nat) :
    ':' ∉ Nat.toDigits base number ∧ '.' ∉ Nat.toDigits base number := by
  induction number using Nat.strongRecOn with
  | ind number ih =>
      rw [Nat.toDigits_eq_if wide]
      split
      next small =>
        have apart := digitChar_no_mark number (by omega)
        simp [apart.1.symm, apart.2.symm]
      next large =>
        have smaller : number / base < number := Nat.div_lt_self (by omega) wide
        have narrow' : number % base < 16 := Nat.lt_of_lt_of_le (Nat.mod_lt _ (by omega)) narrow
        have apart := digitChar_no_mark _ narrow'
        have front := ih _ smaller
        simp [front, apart.1.symm, apart.2.symm]

end Digits

/-! Addresses as texts. -/

theorem groups_injective : ∀ {first second : List UInt8}, 2 ∣ first.length → 2 ∣ second.length →
    groups first = groups second → first = second
  | [], [], _, _, _ => rfl
  | [_], _, odd, _, _ => absurd odd (by simp)
  | _, [_], _, odd, _ => absurd odd (by simp)
  | [], _ :: _ :: _, _, _, same => nomatch same
  | _ :: _ :: _, [], _, _, same => nomatch same
  | high :: low :: first, high' :: low' :: second, even, even', same => by
      obtain ⟨here, later⟩ := List.cons.inj same
      have bounds := And.intro low.toNat_lt low'.toNat_lt
      rw [← Nat.shiftLeft_add_eq_or_of_lt bounds.1, ← Nat.shiftLeft_add_eq_or_of_lt bounds.2,
        Nat.shiftLeft_eq, Nat.shiftLeft_eq] at here
      rw [groups_injective (by simpa using even) (by simpa using even') later,
        UInt8.toNat_inj.mp (show high.toNat = high'.toNat by omega),
        UInt8.toNat_inj.mp (show low.toNat = low'.toNat by omega)]

private theorem shortText (bytes : List UInt8) :
    (∀ part ∈ bytes.map fun byte => toString byte.toNat, '.' ∉ part.toList ∧ ':' ∉ part.toList) := by
  intro part member
  obtain ⟨byte, _, rfl⟩ := List.mem_map.mp member
  rw [Nat.toString_eq_ofList_toDigits, String.toList_ofList]
  exact (no_mark_of_toDigits (by decide) (by decide) byte.toNat).symm

private theorem longText (numbers : List Nat) :
    ∀ part ∈ numbers.map hexText, ':' ∉ part.toList := by
  intro part member
  obtain ⟨number, _, rfl⟩ := List.mem_map.mp member
  rw [hexText, String.toList_ofList]
  exact (no_mark_of_toDigits (by decide) (by decide) number).1

section Addresses

variable {first second : List UInt8}

private theorem zeros_of_all (full : first.length = 16)
    (zeros : (first.drop 4).all (· == 0) = true) : first.drop 4 = List.replicate 12 0 := by
  rw [List.eq_replicate_iff]
  constructor
  · simp [full]
  · simpa using zeros

private theorem colon_mem (full : first.length = 16) :
    ':' ∈ (":".intercalate ((groups first).map hexText)).toList := by
  match first, full with
  | a :: b :: c :: d :: rest, _ =>
      simp only [groups, List.map_cons]
      exact mem_joined ':' _ _ _

private theorem short_of_ipStr (full' : second.length = 16)
    (zeros : (first.drop 4).all (· == 0) = true) (same : ipStr first = ipStr second) :
    (second.drop 4).all (· == 0) = true := by
  apply by_contra
  intro long
  simp only [ipStr, zeros, if_true, long, if_false] at same
  have absent := not_mem_joined '.' (show ':' ≠ '.' by decide)
    fun part member => (shortText (first.take 4) part member).2
  exact absent (same ▸ colon_mem full')

/-- An address of sixteen bytes is shown by one of two texts, told apart by their marks. -/
theorem ipStr_injective (full : first.length = 16) (full' : second.length = 16)
    (same : ipStr first = ipStr second) : first = second := by
  by_cases zeros : (first.drop 4).all (· == 0) = true
  · have zeros' := short_of_ipStr full' zeros same
    simp only [ipStr, zeros, zeros', if_true] at same
    have parts := parts_of_joined '.' (by simp [← List.length_eq_zero_iff, full])
      (by simp [← List.length_eq_zero_iff, full']) (fun part member => (shortText _ part member).1)
      (fun part member => (shortText _ part member).1) same
    have front : first.take 4 = second.take 4 :=
      List.map_injective_iff.mpr (fun _ _ texts => UInt8.toNat_inj.mp (toString_injective texts))
        parts
    rw [← List.take_append_drop 4 first, ← List.take_append_drop 4 second, front,
      zeros_of_all full zeros, zeros_of_all full' zeros']
  · have long' : ¬ (second.drop 4).all (· == 0) = true := fun zeros' =>
      zeros (short_of_ipStr full zeros' same.symm)
    simp only [ipStr, zeros, long', Bool.false_eq_true, if_false] at same
    have some : ∀ {bytes : List UInt8}, bytes.length = 16 → (groups bytes).map hexText ≠ [] := by
      intro bytes full
      match bytes, full with
      | _ :: _ :: rest, _ => simp [groups]
    have parts := parts_of_joined ':' (some full) (some full') (longText _) (longText _) same
    exact groups_injective (by omega) (by omega)
      (List.map_injective_iff.mpr (fun _ _ => hexText_injective) parts)

end Addresses

/-! The protocol as a text. -/

private theorem digits_of_toString (number : Nat) :
    (toString number).toList.all Char.isDigit = true := by
  rw [Nat.toString_eq_ofList_toDigits, String.toList_ofList, List.all_eq_true]
  exact fun _ member => Nat.isDigit_of_mem_toDigits (by decide) (by decide) member

private theorem protoNames_cases (proto : Nat) :
    protoNames proto = none ∨ ∃ name, protoNames proto = some name ∧
      name.toList.all Char.isDigit = false ∧
      ∀ other, protoNames other = some name → other = proto := by
  unfold protoNames
  split
  case h_5 => exact .inl rfl
  all_goals
    refine .inr ⟨_, rfl, by decide, fun other same => ?_⟩
    split at same <;> simp_all

theorem protoText_injective {first second : Nat} (same : protoText first = protoText second) :
    first = second := by
  rw [protoText, protoText] at same
  rcases protoNames_cases first with none | ⟨name, named, letters, unique⟩
  · rcases protoNames_cases second with none' | ⟨name', named', letters', _⟩
    · rw [none, none'] at same
      exact toString_injective same
    · rw [none, named', Option.getD_none, Option.getD_some] at same
      have digits := digits_of_toString first
      rw [same, letters'] at digits
      cases digits
  · rcases protoNames_cases second with none' | ⟨name', named', _⟩
    · rw [named, none', Option.getD_none, Option.getD_some] at same
      have digits := digits_of_toString second
      rw [← same, letters] at digits
      cases digits
    · rw [named, named', Option.getD_some, Option.getD_some] at same
      exact (unique second (same ▸ named')).symm

/-! The bytes that arrive. -/

private theorem unhex_upperHexDigit (value : Nat) :
    unhex (IdsRm.upperHexDigit value) = some (value % 16) := by
  have digits : ∀ digit < 16,
      unhex ("0123456789ABCDEF".toList.getD digit '0') = some digit := by decide
  exact digits _ (Nat.mod_lt _ (by decide))

theorem bufferFromHex_toHex (data : List UInt8) :
    bufferFromHex (IdsRm.toHex data).toList = data := by
  rw [IdsRm.toHex, String.toList_ofList]
  induction data with
  | nil => rfl
  | cons byte data ih =>
      have bound := byte.toNat_lt
      rw [List.flatMap_cons, List.cons_append, List.cons_append, List.nil_append, bufferFromHex,
        unhex_upperHexDigit, unhex_upperHexDigit, ih]
      apply congrArg (· :: data)
      apply UInt8.toNat_inj.mp
      rw [UInt8.toNat_ofNat']
      omega

/-- What stands behind the front of a text is read there. -/
theorem read_behind (raw front part rest : List UInt8) {offset size : Nat}
    (text : raw = front ++ part ++ rest) (start : front.length = offset)
    (full : part.length = size) : (raw.drop offset).take size = part := by
  rw [text, List.append_assoc, List.drop_left' start, List.take_left' full]

theorem bigEndian_be16 (word : UInt16) : bigEndian (be16 word) = word.toNat := by
  have bound := word.toNat_lt
  simp [bigEndian, be16, Nat.shiftRight_eq_div_pow]
  omega

theorem bigEndian_be32 (long : UInt32) : bigEndian (be32 long) = long.toNat := by
  have bound := long.toNat_lt
  simp [bigEndian, be32, Nat.shiftRight_eq_div_pow]
  omega

section Fields

variable (a : ReportedAlert)

/-- The decoder reads each field where the encoder wrote it. -/
structure Carried (raw : List UInt8) : Prop where
  length : raw.length = 46
  detectorType : readUInt8 raw 0 = a.detectorType.toNat
  proto : readUInt8 raw 1 = a.proto.toNat
  srcPort : readUInt16BE raw 2 = a.srcPort.toNat
  dstPort : readUInt16BE raw 4 = a.dstPort.toNat
  srcIp : (raw.drop 6).take 16 = a.srcIp.toList
  dstIp : (raw.drop 22).take 16 = a.dstIp.toList
  count : readUInt32BE raw 38 = a.count.toNat
  aux : readUInt32BE raw 42 = a.aux.toNat

/-- The fields up to the ports, and with the addresses. -/
private def ports : List UInt8 := [a.detectorType, a.proto] ++ be16 a.srcPort ++ be16 a.dstPort

private def addresses : List UInt8 := ports a ++ a.srcIp.toList ++ a.dstIp.toList

private theorem length_addresses : (addresses a).length = 38 := by
  simp [addresses, ports, be16]

theorem carried_serializeContext : Carried a (serializeContext a) := by
  have text : serializeContext a = addresses a ++ be32 a.count ++ be32 a.aux := rfl
  have read := read_behind (serializeContext a)
  have srcPort : ((serializeContext a).drop 2).take 2 = be16 a.srcPort :=
    read [a.detectorType, a.proto] _ (be16 a.dstPort ++ a.srcIp.toList ++ a.dstIp.toList ++
      be32 a.count ++ be32 a.aux) (by simp only [serializeContext, List.append_assoc]) rfl rfl
  have dstPort : ((serializeContext a).drop 4).take 2 = be16 a.dstPort :=
    read ([a.detectorType, a.proto] ++ be16 a.srcPort) _ (a.srcIp.toList ++ a.dstIp.toList ++
      be32 a.count ++ be32 a.aux) (by simp only [serializeContext, List.append_assoc]) rfl rfl
  have srcIp : ((serializeContext a).drop 6).take 16 = a.srcIp.toList :=
    read (ports a) _ (a.dstIp.toList ++ be32 a.count ++ be32 a.aux)
      (by simp only [text, addresses, List.append_assoc]) rfl Vector.length_toList
  have dstIp : ((serializeContext a).drop 22).take 16 = a.dstIp.toList :=
    read (ports a ++ a.srcIp.toList) _ (be32 a.count ++ be32 a.aux)
      (by simp only [text, addresses, List.append_assoc]) (by simp [ports, be16])
      Vector.length_toList
  have count : ((serializeContext a).drop 38).take 4 = be32 a.count :=
    read (addresses a) _ (be32 a.aux) text (length_addresses a) rfl
  have aux : ((serializeContext a).drop 42).take 4 = be32 a.aux :=
    read (addresses a ++ be32 a.count) _ [] (by rw [List.append_nil, text])
      (by rw [List.length_append, length_addresses]; rfl) rfl
  constructor
  · simp [serializeContext, be16, be32]
  · simp [readUInt8, serializeContext, bigEndian]
  · simp [readUInt8, serializeContext, bigEndian]
  · rw [readUInt16BE, srcPort, bigEndian_be16]
  · rw [readUInt16BE, dstPort, bigEndian_be16]
  · exact srcIp
  · exact dstIp
  · rw [readUInt32BE, count, bigEndian_be32]
  · rw [readUInt32BE, aux, bigEndian_be32]

theorem shown_eq : shown a = decodeEthContext (serializeContext a) := by
  rw [shown, bufferFromHex_toHex]

/-- The shown context gives every field back: the numbers themselves, and the protocol and the
bytes of the addresses by their texts. -/
structure Recovered : Prop where
  detectorType : (shown a).detectorType = a.detectorType.toNat
  proto : ∀ other, (shown other).proto = (shown a).proto → other.proto = a.proto
  srcPort : (shown a).srcPort = a.srcPort.toNat
  dstPort : (shown a).dstPort = a.dstPort.toNat
  srcIp : ∀ other, (shown other).srcIp = (shown a).srcIp → other.srcIp = a.srcIp
  dstIp : ∀ other, (shown other).dstIp = (shown a).dstIp → other.dstIp = a.dstIp
  count : (shown a).count = a.count.toNat
  aux : (shown a).aux = a.aux.toNat

private theorem shown_texts : (shown a).proto = protoText a.proto.toNat ∧
    (shown a).srcIp = ipStr a.srcIp.toList ∧ (shown a).dstIp = ipStr a.dstIp.toList := by
  have carried := carried_serializeContext a
  rw [shown_eq]
  refine ⟨?_, ?_, ?_⟩
  · exact congrArg protoText carried.proto
  · exact congrArg ipStr carried.srcIp
  · exact congrArg ipStr carried.dstIp

theorem recovered : Recovered a := by
  have carried := carried_serializeContext a
  have texts := shown_texts a
  constructor
  · rw [shown_eq]
    exact carried.detectorType
  · intro other same
    rw [texts.1, (shown_texts other).1] at same
    exact UInt8.toNat_inj.mp (protoText_injective same)
  · rw [shown_eq]
    exact carried.srcPort
  · rw [shown_eq]
    exact carried.dstPort
  · intro other same
    rw [texts.2.1, (shown_texts other).2.1] at same
    exact Vector.toList_inj.mp (ipStr_injective Vector.length_toList Vector.length_toList same)
  · intro other same
    rw [texts.2.2, (shown_texts other).2.2] at same
    exact Vector.toList_inj.mp (ipStr_injective Vector.length_toList Vector.length_toList same)
  · rw [shown_eq]
    exact carried.count
  · rw [shown_eq]
    exact carried.aux

end Fields

/-! The version of an address. -/

/-- An IPv4 address and the IPv6 address that starts with its bytes and goes on with zeros. -/
def Lookalike : IpAddress → IpAddress → Prop
  | .v4 short, .v6 long => long.toList = short.toList ++ List.replicate 12 0
  | .v6 long, .v4 short => long.toList = short.toList ++ List.replicate 12 0
  | _, _ => False

theorem toList_field (short : Vector UInt8 4) :
    (IpAddress.v4 short).field.toList = short.toList ++ List.replicate 12 0 := by
  rw [IpAddress.field]
  exact (Vector.toList_append ..).trans (congrArg _ Vector.toList_replicate)

theorem field_eq_iff {first second : IpAddress} :
    first.field = second.field ↔ first = second ∨ Lookalike first second := by
  cases first with
  | v4 short =>
      cases second with
      | v4 short' =>
          rw [← Vector.toList_inj, toList_field, toList_field, List.append_left_inj,
            Vector.toList_inj]
          simp [Lookalike]
      | v6 long' =>
          rw [← Vector.toList_inj, toList_field]
          simp [Lookalike, IpAddress.field, eq_comm]
  | v6 long =>
      cases second with
      | v4 short' =>
          rw [← Vector.toList_inj, toList_field]
          simp [Lookalike, IpAddress.field]
      | v6 long' => simp [Lookalike, IpAddress.field]

/-- Both alerts are recovered, and what is shown of their addresses tells them apart. -/
structure ToldApart (first second : SeenAlert) : Prop where
  recovered : Recovered first.reported ∧ Recovered second.reported
  source : (shown first.reported).srcIp = (shown second.reported).srcIp →
    first.source = second.source
  destination : (shown first.reported).dstIp = (shown second.reported).dstIp →
    first.destination = second.destination

/-- Two alerts are told apart exactly when neither address has its lookalike of the other
version in the other alert. -/
theorem alerts_told_apart_iff (first second : SeenAlert) :
    ToldApart first second ↔ ¬ Lookalike first.source second.source ∧
      ¬ Lookalike first.destination second.destination := by
  have different : ∀ {one other : IpAddress}, Lookalike one other → one ≠ other := by
    intro one other alike same
    subst same
    cases one <;> exact alike
  constructor
  · intro apart
    have texts := shown_texts first.reported
    have texts' := shown_texts second.reported
    constructor
    · intro alike
      have fields : first.reported.srcIp = second.reported.srcIp := field_eq_iff.2 (.inr alike)
      exact different alike (apart.source (by rw [texts.2.1, texts'.2.1, fields]))
    · intro alike
      have fields : first.reported.dstIp = second.reported.dstIp := field_eq_iff.2 (.inr alike)
      exact different alike (apart.destination (by rw [texts.2.2, texts'.2.2, fields]))
  · intro ⟨sources, destinations⟩
    constructor
    · exact ⟨recovered _, recovered _⟩
    · intro same
      have fields := (recovered second.reported).srcIp first.reported same
      exact (field_eq_iff.1 fields).resolve_right sources
    · intro same
      have fields := (recovered second.reported).dstIp first.reported same
      exact (field_eq_iff.1 fields).resolve_right destinations

/-! 10.0.0.1 and a00:1::. -/

def shortAlert : SeenAlert where
  detectorType := 1
  proto := 6
  srcPort := 40000
  dstPort := 22
  source := .v4 #v[10, 0, 0, 1]
  destination := .v4 #v[10, 0, 0, 2]
  count := 1
  aux := 20

def longAlert : SeenAlert :=
  { shortAlert with source := .v6 #v[10, 0, 0, 1, 0, 0, 0, 0, 0, 0, 0, 0, 0, 0, 0, 0] }

theorem versions_look_alike : ¬ ToldApart shortAlert longAlert ∧
    (shown shortAlert.reported).srcIp = "10.0.0.1" ∧
    (shown longAlert.reported).srcIp = "10.0.0.1" := by
  have text : ipStr [10, 0, 0, 1, 0, 0, 0, 0, 0, 0, 0, 0, 0, 0, 0, 0] = "10.0.0.1" := by decide
  have first : (shown shortAlert.reported).srcIp = "10.0.0.1" :=
    (shown_texts shortAlert.reported).2.1.trans text
  have second : (shown longAlert.reported).srcIp = "10.0.0.1" :=
    (shown_texts longAlert.reported).2.1.trans text
  refine ⟨fun apart => ?_, first, second⟩
  have same := apart.source (first.trans second.symm)
  cases same

end Idsm.Dashboard
