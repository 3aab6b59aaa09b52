import Idsm.Probe.Pcap

/-! What is written as a pcap file is replayed frame by frame, each at its distance from the
first one, unless the first one is in millisecond zero and a later one is not. -/

set_option autoImplicit false

namespace Idsm.Probe

section Words

variable {front rest : List UInt8} {big : Bool} {value : UInt32}

/-- A number as its four bytes. -/
def word (big : Bool) (value : UInt32) : List UInt8 :=
  let bytes := [UInt8.ofNat value.toNat, .ofNat (value.toNat / 2 ^ 8),
    .ofNat (value.toNat / 2 ^ 16), .ofNat (value.toNat / 2 ^ 24)]
  if big then bytes.reverse else bytes

theorem length_word (big : Bool) (value : UInt32) : (word big value).length = 4 := by
  cases big with
  | true => rfl
  | false => rfl

theorem byteAt_append (index : Nat) :
    byteAt (front ++ rest) (front.length + index) = byteAt rest index := by
  rw [byteAt, byteAt, List.getD_eq_getElem?_getD, List.getD_eq_getElem?_getD,
    List.getElem?_append_right (Nat.le_add_right _ _), Nat.add_sub_cancel_left]

/-- The bytes of a number of four. -/
theorem bytes_of_sum {a b c d : Nat} (first : a < 2 ^ 8) (second : b < 2 ^ 8)
    (third : c < 2 ^ 8) :
    (a + b * 2 ^ 8 + c * 2 ^ 16 + d * 2 ^ 24) % 2 ^ 8 = a ∧
      (a + b * 2 ^ 8 + c * 2 ^ 16 + d * 2 ^ 24) / 2 ^ 8 % 2 ^ 8 = b ∧
      (a + b * 2 ^ 8 + c * 2 ^ 16 + d * 2 ^ 24) / 2 ^ 16 % 2 ^ 8 = c ∧
      (a + b * 2 ^ 8 + c * 2 ^ 16 + d * 2 ^ 24) / 2 ^ 24 = d := by
  omega

theorem toNat_bytes (value : UInt32) : value.toNat = value.toNat % 2 ^ 8 +
    value.toNat / 2 ^ 8 % 2 ^ 8 * 2 ^ 8 + value.toNat / 2 ^ 16 % 2 ^ 8 * 2 ^ 16 +
      value.toNat / 2 ^ 24 * 2 ^ 24 := by
  omega

theorem toNat_copy32 (p : List UInt8) (index : Nat) : (copy32 p index).toNat =
    byteAt p index + byteAt p (index + 1) * 2 ^ 8 + byteAt p (index + 2) * 2 ^ 16 +
      byteAt p (index + 3) * 2 ^ 24 := by
  have small : ∀ index, byteAt p index < 2 ^ 8 := fun index => (p.getD index 0).toNat_lt
  have first := small index
  have second := small (index + 1)
  have third := small (index + 2)
  have fourth := small (index + 3)
  rw [copy32, UInt32.toNat_ofNat_of_lt']
  change _ < 2 ^ 32
  omega

/-- A number is read as it was written, at whatever place. -/
theorem rd32_word (front rest : List UInt8) (big : Bool) (value : UInt32) :
    rd32 big (front ++ (word big value ++ rest)) front.length = value := by
  have small := value.toNat_lt
  have whole := toNat_bytes value
  have start := @byteAt_append front (word big value ++ rest) 0
  rw [Nat.add_zero] at start
  have copied := toNat_copy32 (front ++ (word big value ++ rest)) front.length
  rw [start, byteAt_append, byteAt_append, byteAt_append] at copied
  rw [rd32]
  generalize copy32 (front ++ (word big value ++ rest)) front.length = read at copied ⊢
  apply UInt32.toNat_inj.mp
  cases big with
  | true =>
      simp only [word, if_true, List.reverse_cons, List.reverse_nil, List.nil_append,
        List.cons_append, byteAt, List.getD_cons_zero, List.getD_cons_succ,
        UInt8.toNat_ofNat'] at copied
      obtain ⟨first, second, third, fourth⟩ := @bytes_of_sum _ _ _ (value.toNat % 2 ^ 8)
        (show value.toNat / 2 ^ 24 < 2 ^ 8 by omega) (Nat.mod_lt (value.toNat / 2 ^ 16) (by decide))
        (Nat.mod_lt (value.toNat / 2 ^ 8) (by decide))
      have top : value.toNat / 2 ^ 24 % 2 ^ 8 = value.toNat / 2 ^ 24 := Nat.mod_eq_of_lt (by omega)
      rw [top] at copied
      rw [if_pos rfl, bswap32, copied, first, second, third, fourth,
        UInt32.toNat_ofNat_of_lt']
      · exact whole.symm
      · rw [← whole]
        exact small
  | false =>
      simp only [word, Bool.false_eq_true, if_false, List.cons_append, byteAt,
        List.getD_cons_zero, List.getD_cons_succ, UInt8.toNat_ofNat'] at copied
      rw [if_neg Bool.false_ne_true, copied]
      omega

end Words

section Files

/-- A captured frame, its time of capture and its length on the wire. -/
structure PcapRecord where
  tsSec : UInt32
  tsFrac : UInt32
  frame : List UInt8
  origLen : UInt32
  readable : frame.length ≤ 16 * 1024 * 1024

/-- A classic pcap file; its header has version, zone, accuracy and snap length in the middle. -/
structure PcapFile where
  big : Bool
  nano : Bool
  middle : List UInt8
  records : List PcapRecord
  header : middle.length = 16

def PcapRecord.bytes (big : Bool) (record : PcapRecord) : List UInt8 :=
  word big record.tsSec ++ (word big record.tsFrac ++ (word big (.ofNat record.frame.length) ++
    (word big record.origLen ++ record.frame)))

def PcapFile.magic (file : PcapFile) : UInt32 := if file.nano then 0xA1B23C4D else 0xA1B2C3D4

def PcapFile.bytes (file : PcapFile) (linktype : UInt32) : List UInt8 :=
  word file.big file.magic ++ (file.middle ++ (word file.big linktype ++
    file.records.flatMap (·.bytes file.big)))

/-- How many units of the fraction a millisecond has. -/
def PcapFile.unit (file : PcapFile) : UInt32 := if file.nano then 1000000 else 1000

/-- The time of the capture in units of the fraction. -/
def PcapFile.time (file : PcapFile) (record : PcapRecord) : Nat :=
  record.tsSec.toNat * (1000 * file.unit.toNat) + record.tsFrac.toNat

/-- The millisecond of the capture. -/
def PcapFile.ms (file : PcapFile) (record : PcapRecord) : Nat :=
  file.time record / file.unit.toNat

/-- The frames in order, each with its distance from the first one. -/
def PcapFile.offsets (file : PcapFile) : List (List UInt8 × UInt64) :=
  file.records.map fun record =>
    (record.frame, .ofNat (file.ms record - (file.records.head?.map file.ms).getD 0))

/-- A probe replays the file as it was captured. -/
def ReplaysAs (replay : String → Option (List UInt8) → Replay) (linktype : UInt32)
    (file : PcapFile) : Prop :=
  ∀ path, replay path (some (file.bytes linktype)) = ⟨file.offsets, none⟩

variable {file : PcapFile} {record : PcapRecord} {records : List PcapRecord} {big : Bool}
  {unit : UInt32} {fuel : Nat} {first : UInt64}

/-- The millisecond as the reader computes it. -/
def PcapRecord.stamp (unit : UInt32) (record : PcapRecord) : UInt64 :=
  record.tsSec.toUInt64 * 1000 + (record.tsFrac / unit).toUInt64

/-- The times of the calls, as the reader computes them. -/
def callTimes (unit : UInt32) : UInt64 → List PcapRecord → List (List UInt8 × UInt64)
  | _, [] => []
  | first, record :: records =>
      let first := if first = 0 then record.stamp unit else first
      (record.frame, record.stamp unit - first) :: callTimes unit first records

/-- The fields of four words in a row, and what follows them. -/
theorem words_read (big : Bool) (first second third fourth : UInt32) (rest : List UInt8) :
    let bytes := word big first ++ (word big second ++ (word big third ++ (word big fourth ++ rest)))
    rd32 big bytes 0 = first ∧ rd32 big bytes 4 = second ∧ rd32 big bytes 8 = third ∧
      bytes.drop 16 = rest ∧ bytes.length = 16 + rest.length := by
  have two := rd32_word (word big first) (word big third ++ (word big fourth ++ rest)) big second
  have three := rd32_word (word big first ++ word big second) (word big fourth ++ rest) big third
  rw [length_word] at two
  rw [List.length_append, length_word, length_word, List.append_assoc] at three
  refine ⟨rd32_word [] _ big first, two, three, ?_, ?_⟩
  · rw [← List.append_assoc, ← List.append_assoc, ← List.append_assoc]
    apply List.drop_left'
    simp only [List.length_append, length_word]
  · simp only [List.length_append, length_word]
    omega

theorem replayRecords_bytes (record : PcapRecord) (rest : List UInt8) :
    replayRecords big unit (fuel + 1) first (record.bytes big ++ rest) =
      (replayRecords big unit fuel (if first = 0 then record.stamp unit else first) rest).call
        record.frame (record.stamp unit - if first = 0 then record.stamp unit else first) := by
  have readable := record.readable
  have shape : record.bytes big ++ rest = word big record.tsSec ++ (word big record.tsFrac ++
      (word big (.ofNat record.frame.length) ++ (word big record.origLen ++
        (record.frame ++ rest)))) := by
    simp only [PcapRecord.bytes, List.append_assoc]
  obtain ⟨sec, frac, incl, body, length⟩ := words_read big record.tsSec record.tsFrac
    (.ofNat record.frame.length) record.origLen (record.frame ++ rest)
  have size : (UInt32.ofNat record.frame.length).toNat = record.frame.length := by
    apply UInt32.toNat_ofNat_of_lt'
    change _ < 2 ^ 32
    omega
  have small : ¬ 16 * 1024 * 1024 < UInt32.ofNat record.frame.length := by
    rw [UInt32.lt_iff_toNat_lt, size]
    exact Nat.not_lt.mpr readable
  have whole : ¬ (record.frame ++ rest).length < record.frame.length := by
    rw [List.length_append]
    omega
  rw [shape, replayRecords, if_neg (by rw [length]; omega)]
  dsimp only
  rw [sec, frac, incl, body, if_neg small, size, if_neg whole, List.take_left, List.drop_left]
  rfl

theorem replayRecords_write (enough : records.length ≤ fuel) :
    replayRecords big unit fuel first (records.flatMap (·.bytes big)) =
      ⟨callTimes unit first records, none⟩ := by
  induction records generalizing fuel first with
  | nil =>
      cases fuel with
      | zero => rfl
      | succ fuel => rfl
  | cons record records ih =>
      cases fuel with
      | zero => exact absurd enough (Nat.not_succ_le_zero _)
      | succ fuel =>
          rw [List.flatMap_cons, replayRecords_bytes, ih (Nat.le_of_succ_le_succ enough)]
          rfl

theorem copy32_little (value : UInt32) (rest : List UInt8) :
    copy32 (word false value ++ rest) 0 = value :=
  rd32_word [] rest false value

/-- The bytes of a number in the other order. -/
theorem copy32_big (value : UInt32) (rest : List UInt8) :
    (copy32 (word true value ++ rest) 0).toNat =
      value.toNat / 2 ^ 24 % 2 ^ 8 + value.toNat / 2 ^ 16 % 2 ^ 8 * 2 ^ 8 +
        value.toNat / 2 ^ 8 % 2 ^ 8 * 2 ^ 16 + value.toNat % 2 ^ 8 * 2 ^ 24 := by
  rw [toNat_copy32]
  rfl

/-- What the reader makes of the magic number: the byte order and the resolution. -/
theorem magic_read (big nano : Bool) (rest : List UInt8) :
    let magic := copy32 (word big (if nano then 0xA1B23C4D else 0xA1B2C3D4) ++ rest) 0
    (magic == 0xD4C3B2A1 || magic == 0x4D3CB2A1) = big ∧
      ¬ (big = false ∧ magic ≠ 0xA1B2C3D4 ∧ magic ≠ 0xA1B23C4D) ∧
      (magic = 0xA1B23C4D ∨ magic = 0x4D3CB2A1 ↔ nano = true) := by
  cases big with
  | true =>
      cases nano with
      | true =>
          have read : copy32 (word true 0xA1B23C4D ++ rest) 0 = 0x4D3CB2A1 :=
            UInt32.toNat_inj.mp (copy32_big _ _)
          simp only [if_true, read]
          decide
      | false =>
          have read : copy32 (word true 0xA1B2C3D4 ++ rest) 0 = 0xD4C3B2A1 :=
            UInt32.toNat_inj.mp (copy32_big _ _)
          simp only [Bool.false_eq_true, if_false, read]
          decide
  | false =>
      cases nano with
      | true =>
          simp only [if_true, copy32_little]
          decide
      | false =>
          simp only [Bool.false_eq_true, if_false, copy32_little]
          decide

theorem length_le_bytes (big : Bool) (records : List PcapRecord) :
    records.length ≤ (records.flatMap (·.bytes big)).length := by
  induction records with
  | nil => exact Nat.le_refl 0
  | cons record records ih =>
      have four : (record.bytes big).length = 16 + record.frame.length := by
        simp only [PcapRecord.bytes, List.length_append, length_word]
        omega
      rw [List.flatMap_cons, List.length_append, List.length_cons, four]
      omega

theorem replayPcap_bytes (linktype : UInt32) (linkName path : String) (file : PcapFile) :
    replayPcap linktype linkName path (some (file.bytes linktype)) =
      ⟨callTimes file.unit 0 file.records, none⟩ := by
  have middle := file.header
  have link := rd32_word (word file.big file.magic ++ file.middle)
    (file.records.flatMap (·.bytes file.big)) file.big linktype
  rw [List.length_append, length_word, middle, List.append_assoc] at link
  have body : (file.bytes linktype).drop 24 = file.records.flatMap (·.bytes file.big) := by
    rw [PcapFile.bytes, ← List.append_assoc, ← List.append_assoc]
    apply List.drop_left'
    simp only [List.length_append, length_word, middle]
  have length : (file.bytes linktype).length =
      24 + (file.records.flatMap (·.bytes file.big)).length := by
    simp only [PcapFile.bytes, List.length_append, length_word, middle]
    omega
  have records := length_le_bytes file.big file.records
  have enough : file.records.length ≤ (file.bytes linktype).length := by omega
  obtain ⟨swap, known, nano⟩ := magic_read file.big file.nano
    (file.middle ++ (word file.big linktype ++ file.records.flatMap (·.bytes file.big)))
  rw [← PcapFile.magic, ← PcapFile.bytes] at swap known nano
  have unit : (if copy32 (file.bytes linktype) 0 = 0xA1B23C4D ∨
      copy32 (file.bytes linktype) 0 = 0x4D3CB2A1 then (1000000 : UInt32) else 1000) = file.unit := by
    rw [PcapFile.unit]
    exact if_congr nano rfl rfl
  rw [← PcapFile.bytes] at link
  rw [replayPcap]
  dsimp only
  rw [if_neg (by omega), swap, if_neg known, if_neg (not_not_intro link), unit, body,
    replayRecords_write enough]

theorem toNat_stamp (file : PcapFile) (record : PcapRecord) :
    (record.stamp file.unit).toNat = file.ms record := by
  have sec := record.tsSec.toNat_lt
  have frac := record.tsFrac.toNat_lt
  have positive : 0 < file.unit.toNat := by
    rw [PcapFile.unit]
    cases file.nano with
    | true => decide
    | false => decide
  have part : record.tsFrac.toNat / file.unit.toNat ≤ record.tsFrac.toNat := Nat.div_le_self _ _
  have split : file.ms record =
      record.tsSec.toNat * 1000 + record.tsFrac.toNat / file.unit.toNat := by
    rw [PcapFile.ms, PcapFile.time, ← Nat.mul_assoc, Nat.add_comm, Nat.add_mul_div_right _ _ positive,
      Nat.add_comm]
  rw [split, PcapRecord.stamp, UInt64.toNat_add, UInt64.toNat_mul, UInt32.toNat_toUInt64,
    UInt32.toNat_toUInt64, UInt32.toNat_div]
  have thousand : (1000 : UInt64).toNat = 1000 := rfl
  rw [thousand]
  omega

/-- The frames were captured one after the other. -/
def PcapFile.Ordered (file : PcapFile) : Prop :=
  file.records.Pairwise fun earlier later => file.time earlier ≤ file.time later

theorem callTimes_started (started : first ≠ 0) : callTimes unit first records =
    records.map fun record => (record.frame, record.stamp unit - first) := by
  induction records with
  | nil => rfl
  | cons record records ih =>
      rw [callTimes]
      simp only [if_neg started, ih, List.map_cons]

/-- While no time differs from zero, none is kept. -/
theorem callTimes_zero (zero : ∀ record ∈ records, record.stamp unit = 0) :
    callTimes unit 0 records = records.map fun record => (record.frame, 0) := by
  induction records with
  | nil => rfl
  | cons record records ih =>
      obtain ⟨here, later⟩ := List.forall_mem_cons.mp zero
      rw [callTimes]
      simp only [if_true, here, ih later, List.map_cons, UInt64.sub_self]

/-- The first time that is not zero is taken for the start. -/
theorem callTimes_ne (late : ∃ record ∈ records, record.stamp unit ≠ 0) :
    callTimes unit 0 records ≠ records.map fun record => (record.frame, record.stamp unit) := by
  induction records with
  | nil =>
      obtain ⟨record, impossible, _⟩ := late
      exact absurd impossible List.not_mem_nil
  | cons record records ih =>
      rw [callTimes, List.map_cons]
      simp only [if_true]
      by_cases zero : record.stamp unit = 0
      · rw [zero]
        obtain ⟨other, member, nonzero⟩ := late
        obtain rfl | behind := List.mem_cons.mp member
        · exact absurd zero nonzero
        · exact fun same => ih ⟨other, behind, nonzero⟩ (List.cons.inj same).2
      · rw [UInt64.sub_self]
        exact fun same => zero (Prod.mk.inj (List.cons.inj same).1).2.symm

/-- The reader finds the start of the capture. -/
def PcapFile.StartKnown (file : PcapFile) : Prop :=
  (∀ record ∈ file.records.head?, file.ms record ≠ 0) ∨ ∀ record ∈ file.records, file.ms record = 0

theorem stamp_eq (file : PcapFile) (record : PcapRecord) :
    record.stamp file.unit = .ofNat (file.ms record) := by
  rw [← toNat_stamp, UInt64.ofNat_toNat]

theorem stamp_eq_zero (file : PcapFile) (record : PcapRecord) :
    record.stamp file.unit = 0 ↔ file.ms record = 0 := by
  rw [← toNat_stamp]
  exact UInt64.toNat_inj.symm

theorem callTimes_offsets_iff (ordered : file.Ordered) :
    callTimes file.unit 0 file.records = file.offsets ↔ file.StartKnown := by
  rw [PcapFile.Ordered] at ordered
  rw [PcapFile.offsets, PcapFile.StartKnown]
  cases records : file.records with
  | nil => exact ⟨fun _ => .inl nofun, fun _ => rfl⟩
  | cons start later =>
      rw [records] at ordered
      rw [List.head?_cons, Option.map_some, Option.getD_some]
      by_cases zero : file.ms start = 0
      · have fromZero : ∀ record, UInt64.ofNat (file.ms record - file.ms start) =
            record.stamp file.unit := by
          intro record
          rw [zero, Nat.sub_zero, stamp_eq]
        simp only [fromZero]
        constructor
        · intro same
          right
          by_contra late
          simp only [not_forall] at late
          obtain ⟨record, member, nonzero⟩ := late
          exact callTimes_ne ⟨record, member, mt (stamp_eq_zero file record).1 nonzero⟩ same
        · intro known
          obtain started | all := known
          · exact absurd zero (started start rfl)
          · have stamps : ∀ record ∈ start :: later, record.stamp file.unit = 0 :=
              fun record member => (stamp_eq_zero file record).2 (all record member)
            rw [callTimes_zero stamps]
            apply List.map_congr_left
            intro record member
            rw [stamps record member]
      · have started := mt (stamp_eq_zero file start).1 zero
        refine ⟨fun _ => .inl fun record same => Option.some.inj same ▸ zero, fun _ => ?_⟩
        rw [callTimes]
        simp only [if_true, List.map_cons]
        rw [callTimes_started started, UInt64.sub_self, Nat.sub_self]
        congr 1
        apply List.map_congr_left
        intro record member
        have after := (List.pairwise_cons.mp ordered).1 record member
        have order : file.ms start ≤ file.ms record := Nat.div_le_div_right after
        rw [Prod.mk.injEq]
        refine ⟨rfl, ?_⟩
        rw [← toNat_stamp, ← toNat_stamp] at order ⊢
        apply UInt64.toNat_inj.mp
        rw [UInt64.toNat_sub_of_le _ _ order, UInt64.toNat_ofNat_of_lt']
        have small := (record.stamp file.unit).toNat_lt
        change _ < 2 ^ 64
        omega

/-- Both probes replay a capture frame by frame with its offsets, exactly when its start is not
in millisecond zero or everything is. -/
theorem replay_offsets_iff (ordered : file.Ordered) :
    (ReplaysAs EthProbe.replayPcap 1 file ↔ file.StartKnown) ∧
      (ReplaysAs CanProbe.replayPcap CanProbe.linktypeCanSocketcan file ↔ file.StartKnown) := by
  have read : ∀ (linktype : UInt32) (linkName : String),
      ReplaysAs (replayPcap linktype linkName) linktype file ↔ file.StartKnown := by
    intro linktype linkName
    rw [← callTimes_offsets_iff ordered]
    constructor
    · intro replays
      have same := replays ""
      rw [replayPcap_bytes] at same
      exact (Replay.mk.inj same).1
    · intro same path
      rw [replayPcap_bytes, same]
  exact ⟨read _ _, read _ _⟩

def sampleRecord (tsSec tsFrac : UInt32) : PcapRecord := ⟨tsSec, tsFrac, [1, 2], 2, by decide⟩

/-- Two frames five milliseconds apart. -/
def sampleFile (big nano : Bool) (tsSec tsFrac later : UInt32) : PcapFile :=
  ⟨big, nano, List.replicate 16 0, [sampleRecord tsSec tsFrac, sampleRecord tsSec later], rfl⟩

theorem replay_offsets_sample :
    ReplaysAs EthProbe.replayPcap 1 (sampleFile true true 7 1000000 6000000) ∧
      (sampleFile true true 7 1000000 6000000).offsets = [([1, 2], 0), ([1, 2], 5)] := by
  have ordered : (sampleFile true true 7 1000000 6000000).Ordered := by
    refine List.pairwise_pair.mpr ?_
    decide
  exact ⟨(replay_offsets_iff ordered).1.2 (.inl (by decide)), by decide⟩

/-- From second zero on the second frame is taken for the first one. -/
theorem replay_loses_zero_start :
    (sampleFile false false 0 0 5000).offsets = [([1, 2], 0), ([1, 2], 5)] ∧
      ¬ ReplaysAs EthProbe.replayPcap 1 (sampleFile false false 0 0 5000) ∧
      ¬ ReplaysAs CanProbe.replayPcap CanProbe.linktypeCanSocketcan
        (sampleFile false false 0 0 5000) := by
  have offsets : (sampleFile false false 0 0 5000).offsets = [([1, 2], 0), ([1, 2], 5)] := by decide
  have calls : callTimes (sampleFile false false 0 0 5000).unit 0
      (sampleFile false false 0 0 5000).records = [([1, 2], 0), ([1, 2], 0)] := by
    decide
  have differ : ∀ (linktype : UInt32) (linkName : String),
      ¬ ReplaysAs (replayPcap linktype linkName) linktype (sampleFile false false 0 0 5000) := by
    intro linktype linkName replays
    have same := replays ""
    rw [replayPcap_bytes, calls, offsets] at same
    exact absurd (Replay.mk.inj same).1 (by decide)
  exact ⟨offsets, differ _ _, differ _ _⟩

end Files

end Idsm.Probe
