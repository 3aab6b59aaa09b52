import Idsm.EthProbe.Bytes
import Idsm.EthProbe.UdpProtocols

/-! Questions written as DNS messages and read back by `parseDns`. -/

set_option autoImplicit false

namespace Idsm.EthProbe

section Names

def encodeLabel (label : List UInt8) : List UInt8 := UInt8.ofNat label.length :: label

/-- The labels, each behind its length, up to the empty one of the root. -/
def encodeName (labels : List (List UInt8)) : List UInt8 := labels.flatMap encodeLabel ++ [0]

def dottedName (labels : List (List UInt8)) : List UInt8 := List.intercalate [46] labels

structure DomainName where
  labels : List (List UInt8)
  labelLength : ∀ label ∈ labels, 0 < label.length ∧ label.length ≤ 63
  labelChars : ∀ label ∈ labels, label.all labelCharOk = true
  encodedLength : (encodeName labels).length ≤ 255

def withDots (labels : List (List UInt8)) : List UInt8 :=
  labels.flatMap fun label => label ++ [46]

private theorem withDots_cons (label : List UInt8) (labels : List (List UInt8)) :
    withDots (label :: labels) = dottedName (label :: labels) ++ [46] := by
  induction labels generalizing label with
  | nil => simp [withDots, dottedName]
  | cons next labels ih =>
      have later := ih next
      simp only [withDots, dottedName, List.flatMap_cons, List.append_assoc] at later ⊢
      rw [later, List.intercalate_cons_cons]
      simp

theorem trimDot_withDots (labels : List (List UInt8)) :
    trimDot (withDots labels) = dottedName labels := by
  cases labels with
  | nil => rfl
  | cons label labels =>
      rw [withDots_cons]
      simp [trimDot]

end Names

section Walk

variable {front rest name : List UInt8} {hops total qend : Nat}

/-- A length byte is no compression pointer. -/
private theorem lengthByte (label : List UInt8) (short : label.length ≤ 63) :
    (UInt8.ofNat label.length).toNat = label.length ∧
      UInt8.ofNat label.length &&& 0xC0 ≠ 0xC0 := by
  have value : (UInt8.ofNat label.length).toNat = label.length :=
    UInt8.toNat_ofNat_of_lt (by simp only [UInt8.size]; omega)
  refine ⟨value, fun isPointer => ?_⟩
  have masked := congrArg UInt8.toNat isPointer
  rw [UInt8.toNat_and, value] at masked
  have bounded : label.length &&& (0xC0 : UInt8).toNat ≤ label.length := Nat.and_le_left
  have mask : (0xC0 : UInt8).toNat = 192 := rfl
  omega

variable {data label : List UInt8} {off : Nat}

private theorem walkName_root (inside : off < data.length) (root : byteAt data off = 0) :
    walkName data (hops + 1) off total 0 name = .ok (name, off + 1) := by
  have notPointer : ¬ (0 : UInt8) &&& 0xC0 = 0xC0 := by decide
  simp only [walkName, root, if_neg notPointer, if_neg (Nat.not_le.mpr inside), if_true]

private theorem walkName_label (nonempty : 0 < label.length) (short : label.length ≤ 63)
    (chars : label.all labelCharOk = true) (bounded : total + (label.length + 1) ≤ 255)
    (inside : off + 1 + label.length ≤ data.length)
    (lengthAt : byteAt data off = UInt8.ofNat label.length)
    (labelAt : slice data (off + 1) label.length = label) :
    walkName data (hops + 1) off total 0 name =
      walkName data hops (off + 1 + label.length) (total + (label.length + 1)) 0
        (name ++ label ++ [46]) := by
  obtain ⟨value, notPointer⟩ := lengthByte label short
  have notRoot : UInt8.ofNat label.length ≠ 0 := by
    intro isRoot
    rw [isRoot] at value
    exact Nat.ne_of_lt nonempty value
  have fits : ¬ (63 < UInt8.ofNat label.length ∨ data.length < off + 1 + label.length) := by
    rw [UInt8.lt_iff_toNat_lt, value]
    simp only [UInt8.reduceToNat]
    omega
  simp only [walkName, lengthAt, value, labelAt, if_neg notPointer, if_neg notRoot, if_neg fits,
    if_neg (show ¬ data.length ≤ off by omega),
    if_neg (show ¬ 255 < total + (label.length + 1) by omega), chars, if_true]

/-- A walk takes one turn for each label and one for the root, so it needs more turns than the
name has labels. -/
theorem walkName_encodeName (labels : List (List UInt8))
    (labelLength : ∀ label ∈ labels, 0 < label.length ∧ label.length ≤ 63)
    (labelChars : ∀ label ∈ labels, label.all labelCharOk = true)
    (bounded : total + (labels.flatMap encodeLabel).length ≤ 255) :
    walkName (front ++ encodeName labels ++ rest) hops front.length total 0 name =
      if labels.length < hops then
        .ok (name ++ withDots labels, front.length + (encodeName labels).length)
      else .error .malformed := by
  induction labels generalizing front hops total name with
  | nil =>
      cases hops with
      | zero => rfl
      | succ hops =>
          have inside : front.length < (front ++ encodeName [] ++ rest).length := by
            simp [encodeName]
          have root : byteAt (front ++ encodeName [] ++ rest) front.length = 0 := by
            simp [encodeName, byteAt]
          rw [walkName_root inside root]
          simp [encodeName, withDots]
  | cons label labels ih =>
      cases hops with
      | zero => rfl
      | succ hops =>
          have split : front ++ encodeName (label :: labels) ++ rest =
              (front ++ encodeLabel label) ++ encodeName labels ++ rest := by
            simp [encodeName]
          have lengths : ((label :: labels).flatMap encodeLabel).length =
              label.length + 1 + (labels.flatMap encodeLabel).length := by
            simp [encodeLabel]
            omega
          have chosen := labelLength label List.mem_cons_self
          have lengthAt : byteAt (front ++ encodeName (label :: labels) ++ rest) front.length =
              UInt8.ofNat label.length := by
            simp [byteAt, encodeName, encodeLabel]
          have labelAt : slice (front ++ encodeName (label :: labels) ++ rest) (front.length + 1)
              label.length = label := by
            simp [slice, encodeName, encodeLabel]
          rw [walkName_label chosen.1 chosen.2 (labelChars label List.mem_cons_self) (by omega)
            (by simp [encodeName, encodeLabel]; omega) lengthAt labelAt, split]
          have off : front.length + 1 + label.length = (front ++ encodeLabel label).length := by
            simp [encodeLabel]; omega
          rw [off, ih (fun other member => labelLength other (List.mem_cons_of_mem _ member))
            (fun other member => labelChars other (List.mem_cons_of_mem _ member)) (by omega)]
          have named : name ++ label ++ [46] ++ withDots labels =
              name ++ withDots (label :: labels) := by
            simp [withDots]
          have reached : (front ++ encodeLabel label).length + (encodeName labels).length =
              front.length + (encodeName (label :: labels)).length := by
            simp [encodeName]
            omega
          rw [named, reached]
          simp only [List.length_cons, Nat.add_lt_add_iff_right]

end Walk

section Message

structure DnsQuestion where
  txid : UInt16
  flags : UInt16
  ancount : UInt16
  nscount : UInt16
  arcount : UInt16
  name : DomainName
  qtype : UInt16
  qclass : UInt16
  rest : List UInt8

/-- The header of a message with one question. -/
def DnsQuestion.header (question : DnsQuestion) : List UInt8 :=
  be16 question.txid ++ be16 question.flags ++ be16 1 ++ be16 question.ancount ++
    be16 question.nscount ++ be16 question.arcount

/-- The question stands uncompressed behind the header; anything may follow it. -/
def DnsQuestion.message (question : DnsQuestion) : List UInt8 :=
  question.header ++ encodeName question.name.labels ++ be16 question.qtype ++
    be16 question.qclass ++ question.rest

def DnsQuestion.ReadBack (question : DnsQuestion) : Prop :=
  (parseDns question.message).valid = true ∧
    (parseDns question.message).error = .ok ∧
    (parseDns question.message).qname = dottedName question.name.labels ∧
    (parseDns question.message).qtype = question.qtype ∧
    (parseDns question.message).qclass = question.qclass

variable (question : DnsQuestion)

private theorem header_length : question.header.length = 12 := by
  simp [DnsQuestion.header, be16]

private theorem message_qdcount : rd16 question.message 4 = 1 := by
  have counted := rd16_be16 (be16 question.txid ++ be16 question.flags)
    (be16 question.ancount ++ be16 question.nscount ++ be16 question.arcount ++
      encodeName question.name.labels ++ be16 question.qtype ++ be16 question.qclass ++
      question.rest) 1
  simpa [DnsQuestion.message, DnsQuestion.header, be16] using counted

private theorem message_qtype :
    rd16 question.message (12 + (encodeName question.name.labels).length) = question.qtype := by
  have read := rd16_be16 (question.header ++ encodeName question.name.labels)
    (be16 question.qclass ++ question.rest) question.qtype
  rw [List.length_append, header_length] at read
  simpa only [DnsQuestion.message, List.append_assoc] using read

private theorem message_qclass :
    rd16 question.message (12 + (encodeName question.name.labels).length + 2) =
      question.qclass := by
  have read := rd16_be16 (question.header ++ encodeName question.name.labels ++
    be16 question.qtype) question.rest question.qclass
  have width : (be16 question.qtype).length = 2 := rfl
  rw [List.length_append, List.length_append, header_length, width] at read
  simpa only [DnsQuestion.message, List.append_assoc] using read

private theorem message_length :
    question.message.length =
      12 + (encodeName question.name.labels).length + 4 + question.rest.length := by
  simp [DnsQuestion.message, header_length, be16]
  omega

private theorem message_walk :
    walkName question.message dnsMaxHops 12 0 0 [] =
      if question.name.labels.length < dnsMaxHops then
        .ok (withDots question.name.labels, 12 + (encodeName question.name.labels).length)
      else .error .malformed := by
  have encoded := question.name.encodedLength
  rw [encodeName, List.length_append] at encoded
  have bounded : 0 + (question.name.labels.flatMap encodeLabel).length ≤ 255 := by omega
  have walked := @walkName_encodeName question.header
    (be16 question.qtype ++ be16 question.qclass ++ question.rest) [] dnsMaxHops 0
    question.name.labels question.name.labelLength question.name.labelChars bounded
  rw [header_length, List.nil_append] at walked
  simpa only [DnsQuestion.message, List.append_assoc] using walked

theorem question_readBack_iff : question.ReadBack ↔ question.name.labels.length ≤ 31 := by
  have walked := message_walk question
  have long := message_length question
  have counted := message_qdcount question
  by_cases few : question.name.labels.length < dnsMaxHops
  · rw [if_pos few] at walked
    refine ⟨fun _ => Nat.le_of_lt_succ few, fun _ => ?_⟩
    have parsed : parseDns question.message =
        { DnsInfo.header question.message with
          qname := dottedName question.name.labels
          qtype := question.qtype
          qclass := question.qclass
          valid := true } := by
      rw [parseDns, if_neg (show ¬ question.message.length < 12 by omega)]
      simp only [DnsInfo.header, counted, walked, trimDot_withDots, message_qtype, message_qclass,
        if_neg (show ¬ question.message.length <
          12 + (encodeName question.name.labels).length + 4 by omega),
        if_neg (show ¬ (1 : UInt16) = 0 by decide)]
    rw [DnsQuestion.ReadBack, parsed]
    exact ⟨rfl, rfl, rfl, rfl, rfl⟩
  · rw [if_neg few] at walked
    refine ⟨fun readBack => ?_, fun bounded => absurd (Nat.lt_succ_of_le bounded) few⟩
    have failed : (parseDns question.message).valid = false := by
      rw [parseDns, if_neg (show ¬ question.message.length < 12 by omega)]
      simp [DnsInfo.header, counted, walked]
    rw [DnsQuestion.ReadBack, failed] at readBack
    exact nomatch readBack.1

/-- The name of a reverse lookup of an IPv6 address: its 32 digits, `ip6` and `arpa`. -/
def reverseName : DomainName where
  labels := List.replicate 32 [48] ++ [[105, 112, 54], [97, 114, 112, 97]]
  labelLength := by decide
  labelChars := by decide
  encodedLength := by decide

def reverseQuestion : DnsQuestion where
  txid := 1
  flags := 0x0100
  ancount := 0
  nscount := 0
  arcount := 0
  name := reverseName
  qtype := 12
  qclass := 1
  rest := []

theorem reverse_lookup_malformed :
    (parseDns reverseQuestion.message).error = .malformed ∧ ¬ reverseQuestion.ReadBack := by
  have malformed : (parseDns reverseQuestion.message).error = .malformed := by decide
  refine ⟨malformed, fun readBack => ?_⟩
  rw [readBack.2.1] at malformed
  exact nomatch malformed

end Message

end Idsm.EthProbe
