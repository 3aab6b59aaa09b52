import Idsm.EthProbe.IpDefragProperties
import Idsm.Foundation.Execution

/-! What the frame path hands to the transport layer for the fragments of a packet, against what
it hands over for the packet itself. -/

set_option autoImplicit false

namespace Idsm.EthProbe

open Idsm.Foundation

section Views

/-- What the transport layer reads of a packet. -/
structure L4View where
  isIpv4 : Bool
  isIpv6 : Bool
  srcIp : List UInt8
  dstIp : List UInt8
  l4Proto : UInt8
  srcPort : UInt16
  dstPort : UInt16
  isTcp : Bool
  tcpSeq : UInt32
  tcpAck : UInt32
  tcpFlags : UInt8
  isUdp : Bool
  payload : List UInt8
  l4Data : List UInt8
  truncated : Bool
  deriving DecidableEq, Repr

def ParsedPacket.l4View (pp : ParsedPacket) : L4View where
  isIpv4 := pp.isIpv4
  isIpv6 := pp.isIpv6
  srcIp := pp.srcIp
  dstIp := pp.dstIp
  l4Proto := pp.l4Proto
  srcPort := pp.srcPort
  dstPort := pp.dstPort
  isTcp := pp.isTcp
  tcpSeq := pp.tcpSeq
  tcpAck := pp.tcpAck
  tcpFlags := pp.tcpFlags
  isUdp := pp.isUdp
  payload := pp.payload
  l4Data := pp.l4Data
  truncated := pp.truncated

/-- What the frame path and the reassembly read of a packet. -/
structure L3View where
  isArp : Bool
  isIpv4 : Bool
  isIpv6 : Bool
  srcIp : List UInt8
  dstIp : List UInt8
  l4Proto : UInt8
  isFragment : Bool
  fragId : UInt32
  fragOffset : Nat
  fragMore : Bool
  l4Data : List UInt8
  deriving DecidableEq, Repr

def ParsedPacket.l3View (pp : ParsedPacket) : L3View where
  isArp := pp.isArp
  isIpv4 := pp.isIpv4
  isIpv6 := pp.isIpv6
  srcIp := pp.srcIp
  dstIp := pp.dstIp
  l4Proto := pp.l4Proto
  isFragment := pp.isFragment
  fragId := pp.fragId
  fragOffset := pp.fragOffset
  fragMore := pp.fragMore
  l4Data := pp.l4Data

variable {p : List UInt8} {proto : UInt8} {out other : ParsedPacket}

theorem parseL4_l3View : (parseL4 p proto out).l3View = out.l3View := by
  unfold parseL4 parseTcp parseUdp parseIcmp
  dsimp only
  split_ifs <;> rfl

theorem parseL4_l4View (same : out.l4View = other.l4View) :
    (parseL4 p proto out).l4View = (parseL4 p proto other).l4View := by
  simp only [ParsedPacket.l4View, L4View.mk.injEq] at same
  obtain ⟨v4, v6, src, dst, proto, srcPort, dstPort, tcp, seq, ack, flags, udp, payload, data,
    truncated⟩ := same
  unfold parseL4 parseTcp parseUdp parseIcmp
  dsimp only
  split_ifs <;> simp [ParsedPacket.l4View, *]

end Views

section Frames

/-- The type of what stands behind the Ethernet header and its tags, and the bytes. -/
def behindTags (frame : List UInt8) : Option (UInt16 × List UInt8) :=
  if frame.length < 14 then none
  else (skipVlanTags frame 2 (rd16 frame 12) 14).map fun found => (found.1, frame.drop found.2)

/-- Over so many extension headers, to the next one and its offset. -/
def skipHeaders (p : List UInt8) : (headers : Nat) → (next : UInt8) → (off : Nat) →
    Option (UInt8 × Nat)
  | 0, next, off => some (next, off)
  | headers + 1, next, off =>
      match extLength p next off with
      | none => none
      | some extLen =>
          if p.length < off + 2 ∨ p.length < off + extLen then none
          else skipHeaders p headers (byteAt p off) (off + extLen)

/-- An IPv4 packet that carries a piece; a trailer of the frame may follow. -/
structure Ipv4Fragment (pp : ParsedPacket) (id : UInt32) (piece : Piece) (p : List UInt8) :
    Prop where
  version : byteAt p 0 >>> 4 = 4
  header : 20 ≤ (byteAt p 0 &&& 0xF).toNat * 4
  total : (rd16 p 2).toNat = (byteAt p 0 &&& 0xF).toNat * 4 + piece.data.length
  id : (rd16 p 4).toUInt32 = id
  more : (rd16 p 6 &&& 0x2000 != 0) = piece.more
  offset : (rd16 p 6 &&& 0x1FFF).toNat * 8 = piece.start
  proto : byteAt p 9 = pp.l4Proto
  src : ipv4Field (slice p 12 4) = pp.srcIp
  dst : ipv4Field (slice p 16 4) = pp.dstIp
  data : StandsAt p ((byteAt p 0 &&& 0xF).toNat * 4) piece.data

/-- An IPv6 packet that carries a piece behind so many extension headers and, at `off`, the
fragment header. -/
structure Ipv6Fragment (pp : ParsedPacket) (headers : Nat) (next : UInt8) (id : UInt32)
    (piece : Piece) (p : List UInt8) (off : Nat) : Prop where
  version : byteAt p 0 >>> 4 = 6
  src : slice p 8 16 = pp.srcIp
  dst : slice p 24 16 = pp.dstIp
  header : skipHeaders p headers (byteAt p 6) 40 = some (ip6Frag, off)
  next : byteAt p off = next
  offset : (rd16 p (off + 2) >>> 3).toNat * 8 = piece.start
  more : (rd16 p (off + 2) &&& 1 != 0) = piece.more
  id : rd32 p (off + 4) = id
  data : p.drop (off + 8) = piece.data

/-- The frame carries a piece of the packet. -/
def Carries (pp : ParsedPacket) (headers : Nat) (next : UInt8) (id : UInt32) (piece : Piece)
    (frame : List UInt8) : Prop :=
  if pp.isIpv6 then ∃ p off, behindTags frame = some (ethPIpv6, p) ∧
    Ipv6Fragment pp headers next id piece p off
  else ∃ p, behindTags frame = some (ethPIpv4, p) ∧ Ipv4Fragment pp id piece p

/-- What a packet gives to its fragments: what an IPv4 packet carries, and of an IPv6 packet
what stands behind so many extension headers. -/
def fragmentable (frame : List UInt8) (pp : ParsedPacket) (headers : Nat) :
    Option (UInt8 × List UInt8) :=
  if pp.isIpv6 then
    (behindTags frame).bind fun found =>
      (skipHeaders found.2 headers (byteAt found.2 6) 40).map fun reached =>
        (reached.1, found.2.drop reached.2)
  else some (pp.l4Proto, pp.l4Data)

end Frames

section Parsing

variable {frame p : List UInt8} {pp out : ParsedPacket}

/-- A packet of which only the addresses and the carried bytes are known. -/
def l4Base (pp : ParsedPacket) (proto : UInt8) (data : List UInt8) : ParsedPacket :=
  { ParsedPacket.empty with
    isIpv4 := pp.isIpv4
    isIpv6 := pp.isIpv6
    srcIp := pp.srcIp
    dstIp := pp.dstIp
    l4Proto := proto
    l4Data := data }

/-- Nothing but the Ethernet header has been parsed. -/
structure Unparsed (out : ParsedPacket) : Prop where
  l3 : out.l3View = ParsedPacket.empty.l3View
  l4 : out.l4View = ParsedPacket.empty.l4View

theorem parsePacket_of_behindTags {ethertype : UInt16}
    (behind : behindTags frame = some (ethertype, p)) :
    ∃ out, Unparsed out ∧ (ethertype = ethPIpv4 → parsePacket frame = some (parseIpv4 p out)) ∧
      (ethertype = ethPIpv6 → parsePacket frame = some (parseIpv6 p out)) := by
  unfold behindTags at behind
  split at behind
  next => cases behind
  next long =>
    obtain ⟨⟨found, off⟩, skipped, rest⟩ := Option.map_eq_some_iff.mp behind
    obtain ⟨rfl, rfl⟩ := Prod.mk.inj rest
    refine ⟨{ ParsedPacket.empty with
      dstMac := slice frame 0 6
      srcMac := slice frame 6 6
      ethertype := found
      vlanTags := (off - 14) / 4 }, ⟨rfl, rfl⟩, ?_, ?_⟩
    · rintro rfl
      simp only [parsePacket, if_neg long, skipped]
      rfl
    · rintro rfl
      simp only [parsePacket, if_neg long, skipped]
      rfl

theorem parsePacket_cases (accepted : parsePacket frame = some pp)
    (ip : pp.isIpv4 = true ∨ pp.isIpv6 = true) :
    ∃ p out, Unparsed out ∧ (behindTags frame = some (ethPIpv4, p) ∧ pp = parseIpv4 p out ∨
      behindTags frame = some (ethPIpv6, p) ∧ pp = parseIpv6 p out) := by
  unfold parsePacket at accepted
  split at accepted
  next => cases accepted
  next long =>
    split at accepted
    next => cases accepted
    next ethertype off skipped =>
      have behind : behindTags frame = some (ethertype, frame.drop off) := by
        rw [behindTags, if_neg long, skipped, Option.map_some]
      dsimp only at accepted
      split at accepted
      next same =>
        subst same
        refine ⟨_, _, ?_, .inl ⟨behind, (Option.some.inj accepted).symm⟩⟩
        exact ⟨rfl, rfl⟩
      next =>
        split at accepted
        next same =>
          subst same
          refine ⟨_, _, ?_, .inr ⟨behind, (Option.some.inj accepted).symm⟩⟩
          exact ⟨rfl, rfl⟩
        next =>
          split at accepted
          next =>
            obtain rfl := Option.some.inj accepted
            exfalso
            unfold parseArp at ip
            split_ifs at ip <;> simp [ParsedPacket.empty] at ip
          next => cases accepted

structure Ipv4Header (p : List UInt8) : Prop where
  long : 20 ≤ p.length
  version : byteAt p 0 >>> 4 = 4
  header : 20 ≤ (byteAt p 0 &&& 0xF).toNat * 4 ∧ (byteAt p 0 &&& 0xF).toNat * 4 ≤ p.length
  total : (byteAt p 0 &&& 0xF).toNat * 4 ≤ (rd16 p 2).toNat

/-- What an IPv4 packet carries. -/
def ipv4Data (p : List UInt8) : List UInt8 :=
  slice p ((byteAt p 0 &&& 0xF).toNat * 4)
    ((if (rd16 p 2).toNat ≤ p.length then (rd16 p 2).toNat else p.length) -
      (byteAt p 0 &&& 0xF).toNat * 4)

/-- The header of an IPv4 packet has been parsed. -/
def ipv4Filled (p : List UInt8) (out : ParsedPacket) : ParsedPacket :=
  { out with
    isIpv4 := true
    fragId := (rd16 p 4).toUInt32
    fragMore := rd16 p 6 &&& 0x2000 != 0
    fragOffset := (rd16 p 6 &&& 0x1FFF).toNat * 8
    isFragment := (rd16 p 6 &&& 0x2000 != 0) || decide (0 < (rd16 p 6 &&& 0x1FFF).toNat * 8)
    firstFragment := decide ((rd16 p 6 &&& 0x1FFF).toNat * 8 = 0)
    l4Proto := byteAt p 9
    srcIp := ipv4Field (slice p 12 4)
    dstIp := ipv4Field (slice p 16 4)
    l4Data := ipv4Data p }

theorem parseIpv4_of_header (header : Ipv4Header p) :
    parseIpv4 p out =
      if (ipv4Filled p out).isFragment ∧ ¬ (ipv4Filled p out).firstFragment then ipv4Filled p out
      else parseL4 (ipv4Data p) (byteAt p 9) (ipv4Filled p out) := by
  unfold parseIpv4
  rw [if_neg (Nat.not_lt.mpr header.long), if_neg (not_not.mpr header.version),
    if_neg (not_or.mpr ⟨Nat.not_lt.mpr header.header.1, Nat.not_lt.mpr header.header.2⟩),
    if_neg (Nat.not_lt.mpr header.total)]
  rfl

theorem parseIpv4_of_noHeader (headerless : ¬ Ipv4Header p) :
    parseIpv4 p out = { out with truncated := true } := by
  unfold parseIpv4
  dsimp only
  split
  next => rfl
  next long =>
    split
    next => rfl
    next version =>
      split
      next => rfl
      next header =>
        split
        next => rfl
        next total =>
          exact absurd ⟨Nat.not_lt.mp long, not_not.mp version,
            ⟨Nat.not_lt.mp (not_or.mp header).1, Nat.not_lt.mp (not_or.mp header).2⟩,
            Nat.not_lt.mp total⟩ headerless

theorem header_of_parseIpv4 (plain : out.isIpv4 = false)
    (parsed : (parseIpv4 p out).isIpv4 = true) : Ipv4Header p := by
  by_contra headerless
  rw [parseIpv4_of_noHeader headerless] at parsed
  exact Bool.false_ne_true (plain.symm.trans parsed)

/-- What the transport layer sees of carried bytes. -/
def carriedView (pp : ParsedPacket) (proto : UInt8) (data : List UInt8) : L4View :=
  (parseL4 data proto (l4Base pp proto data)).l4View

/-- The transport layer has not been parsed. -/
def Blank (filled : ParsedPacket) : Prop :=
  filled.l4View = (l4Base filled filled.l4Proto filled.l4Data).l4View

theorem l4Base_congr {filled : ParsedPacket} (same : pp.l3View = filled.l3View) (proto : UInt8)
    (data : List UInt8) : l4Base pp proto data = l4Base filled proto data := by
  simp only [ParsedPacket.l3View, L3View.mk.injEq] at same
  simp only [l4Base, same]

theorem Blank.l4View_parseL4 {filled : ParsedPacket} (blank : Blank filled) :
    (parseL4 filled.l4Data filled.l4Proto filled).l4View =
      carriedView (parseL4 filled.l4Data filled.l4Proto filled) filled.l4Proto filled.l4Data := by
  rw [carriedView, l4Base_congr parseL4_l3View]
  exact parseL4_l4View blank

theorem Unparsed.blank_ipv4 (unparsed : Unparsed out) : Blank (ipv4Filled p out) := by
  have l3 := unparsed.l3
  have l4 := unparsed.l4
  simp only [ParsedPacket.l3View, L3View.mk.injEq] at l3
  simp only [ParsedPacket.l4View, L4View.mk.injEq] at l4
  simp only [Blank, ParsedPacket.l4View, l4Base, ipv4Filled, l3, l4]

theorem parseIpv4_l3View (header : Ipv4Header p) :
    (parseIpv4 p out).l3View = (ipv4Filled p out).l3View := by
  rw [parseIpv4_of_header header]
  split
  next => rfl
  next => exact parseL4_l3View

/-- What does not depend on the header. -/
theorem parseIpv4_version (unparsed : Unparsed out) :
    (parseIpv4 p out).isArp = false ∧ (parseIpv4 p out).isIpv6 = false := by
  have l3 := unparsed.l3
  simp only [ParsedPacket.l3View, L3View.mk.injEq] at l3
  by_cases header : Ipv4Header p
  · have views := @parseIpv4_l3View p out header
    exact ⟨(congrArg L3View.isArp views).trans l3.1, (congrArg L3View.isIpv6 views).trans l3.2.2.1⟩
  · rw [parseIpv4_of_noHeader header]
    exact ⟨l3.1, l3.2.2.1⟩

/-- An IPv4 packet that is no fragment. -/
theorem parseIpv4_whole (unparsed : Unparsed out) (v4 : (parseIpv4 p out).isIpv4 = true)
    (whole : (parseIpv4 p out).isFragment = false) :
    (parseIpv4 p out).l4View =
      carriedView (parseIpv4 p out) (parseIpv4 p out).l4Proto (parseIpv4 p out).l4Data := by
  have l3 := unparsed.l3
  simp only [ParsedPacket.l3View, L3View.mk.injEq] at l3
  have header := header_of_parseIpv4 (l3.2.1) v4
  have views := @parseIpv4_l3View p out header
  have shape := @parseIpv4_of_header p out header
  simp only [ParsedPacket.l3View, L3View.mk.injEq] at views
  obtain ⟨-, -, -, -, -, proto, fragment, -, -, -, data⟩ := views
  rw [if_neg fun no => by rw [← fragment, whole] at no; cases no.1] at shape
  rw [proto, data, shape]
  exact unparsed.blank_ipv4.l4View_parseL4

/-- What the frame path sees of a piece. -/
def fragmentView (pp : ParsedPacket) (next : UInt8) (id : UInt32) (piece : Piece) : L3View where
  isArp := false
  isIpv4 := pp.isIpv4
  isIpv6 := pp.isIpv6
  srcIp := pp.srcIp
  dstIp := pp.dstIp
  l4Proto := next
  isFragment := true
  fragId := id
  fragOffset := piece.start
  fragMore := piece.more
  l4Data := piece.data

theorem parse_ipv4Fragment {id : UInt32} {piece : Piece} (unparsed : Unparsed out)
    (carried : Ipv4Fragment pp id piece p) (something : piece.data ≠ [])
    (several : piece.more = true ∨ 0 < piece.start) (v4 : pp.isIpv4 = true)
    (no6 : pp.isIpv6 = false) :
    (parseIpv4 p out).l3View = fragmentView pp pp.l4Proto id piece := by
  have within := carried.data.end_le something
  have positive := List.length_pos_iff.mpr something
  have low := carried.header
  have header : Ipv4Header p := by
    refine ⟨by omega, carried.version, ⟨low, by omega⟩, ?_⟩
    rw [carried.total]
    omega
  have data : ipv4Data p = piece.data := by
    rw [ipv4Data, carried.total, if_pos within, Nat.add_sub_cancel_left]
    exact carried.data.eq_take.symm
  have fragment : (piece.more || decide (0 < piece.start)) = true := by
    rcases several with more | onward
    · rw [more, Bool.true_or]
    · rw [decide_eq_true onward, Bool.or_true]
  have l3 := unparsed.l3
  simp only [ParsedPacket.l3View, L3View.mk.injEq] at l3
  rw [parseIpv4_l3View header]
  simp only [ParsedPacket.l3View, ipv4Filled, fragmentView, L3View.mk.injEq, carried.id,
    carried.more, carried.offset, carried.proto, carried.src, carried.dst, data, fragment, v4, no6,
    and_true, true_and]
  exact ⟨l3.1, l3.2.2.1⟩

end Parsing

section ExtensionHeaders

variable {p : List UInt8} {hops headers off stop : Nat} {next last : UInt8}

/-- The header is one that the walk skips. -/
def isExtension (next : UInt8) : Bool :=
  next == ip6Hbh || next == ip6Rt || next == ip6Dst || next == ip6Ah

theorem extLength_eq_none : extLength p next off = none ↔ isExtension next = false := by
  unfold extLength isExtension
  split_ifs with options authentication
  · rcases options with rfl | rfl | rfl <;> simp
  · simp [authentication]
  · simp only [not_or] at options
    simp [options, authentication]

theorem le_extLength {extLen : Nat} (found : extLength p next off = some extLen) : 8 ≤ extLen := by
  unfold extLength at found
  split_ifs at found
  · obtain rfl := Option.some.inj found
    omega
  · obtain rfl := Option.some.inj found
    omega

/-- The walk over headers that are skipped. -/
theorem walkExtensions_skip (skipped : skipHeaders p headers next off = some (last, stop))
    (few : headers ≤ hops) :
    walkExtensions p hops next off = walkExtensions p (hops - headers) last stop := by
  induction headers generalizing hops next off with
  | zero =>
      obtain ⟨rfl, rfl⟩ := Prod.mk.inj (Option.some.inj skipped)
      rfl
  | succ headers ih =>
      cases hops with
      | zero => omega
      | succ hops =>
          rw [skipHeaders] at skipped
          rw [walkExtensions_succ]
          cases found : extLength p next off with
          | none =>
              rw [found] at skipped
              cases skipped
          | some extLen =>
              rw [found] at skipped
              dsimp only at skipped ⊢
              split at skipped
              next => cases skipped
              next inside =>
                rw [if_neg inside, ih skipped (by omega), Nat.add_sub_add_right]

/-- With no hops left the walk stops at any header. -/
theorem walkExtensions_exhausted (skipped : skipHeaders p headers next off = some (last, stop))
    (many : hops ≤ headers) :
    ∃ walked, walkExtensions p hops next off = some walked ∧ walked.fragment = none := by
  induction hops generalizing headers next off with
  | zero => exact ⟨_, rfl, rfl⟩
  | succ hops ih =>
      cases headers with
      | zero => omega
      | succ headers =>
          rw [skipHeaders] at skipped
          rw [walkExtensions_succ]
          cases found : extLength p next off with
          | none =>
              rw [found] at skipped
              cases skipped
          | some extLen =>
              rw [found] at skipped
              dsimp only at skipped ⊢
              split at skipped
              next => cases skipped
              next inside =>
                rw [if_neg inside]
                exact ih skipped (by omega)

theorem walkExtensions_onward {walked : Walked}
    (walk : walkExtensions p hops next off = some walked) : off ≤ walked.off := by
  induction hops generalizing next off with
  | zero =>
      obtain rfl := Option.some.inj walk
      exact Nat.le_refl _
  | succ hops ih =>
      rw [walkExtensions_succ] at walk
      split at walk
      next extLen found =>
        split at walk
        next => cases walk
        next =>
          have := ih walk
          omega
      next =>
        split_ifs at walk
        · obtain rfl := Option.some.inj walk
          exact Nat.le_add_right _ _
        · obtain rfl := Option.some.inj walk
          exact Nat.le_refl _

theorem skipHeaders_onward (skipped : skipHeaders p headers next off = some (last, stop)) :
    off ≤ stop := by
  have walk := walkExtensions_skip skipped (Nat.le_refl _)
  rw [Nat.sub_self] at walk
  exact walkExtensions_onward walk

/-- The walk ends at a fragment header. -/
theorem walkExtensions_fragment (inside : off + 8 ≤ p.length) :
    walkExtensions p (hops + 1) ip6Frag off =
      some ⟨byteAt p off, off + 8, some ⟨(rd16 p (off + 2) >>> 3).toNat * 8,
        rd16 p (off + 2) &&& 1 != 0, rd32 p (off + 4)⟩⟩ := by
  have plain : isExtension ip6Frag = false := by decide
  rw [walkExtensions_succ, extLength_eq_none.2 plain]
  dsimp only
  rw [if_pos rfl, if_neg (by omega)]

theorem walkExtensions_past {walked : Walked} (extension : isExtension next = true)
    (walk : walkExtensions p (hops + 1) next off = some walked) : off < walked.off := by
  rw [walkExtensions_succ] at walk
  cases found : extLength p next off with
  | none =>
      rw [extLength_eq_none.1 found] at extension
      cases extension
  | some extLen =>
      rw [found] at walk
      dsimp only at walk
      split at walk
      next => cases walk
      next =>
        have := le_extLength found
        have := walkExtensions_onward walk
        omega

theorem walkExtensions_here (plain : isExtension next = false) (noFragment : next ≠ ip6Frag)
    (hops : Nat) : walkExtensions p hops next off = some ⟨next, off, none⟩ := by
  cases hops with
  | zero => rfl
  | succ hops => rw [walkExtensions_succ, extLength_eq_none.2 plain, if_neg noFragment]

end ExtensionHeaders

section Parsing6

variable {frame p : List UInt8} {pp out : ParsedPacket} {next : UInt8} {headers : Nat}
  {data : List UInt8}

/-- The walk of an IPv6 packet has reached a header that is not a fragment header. -/
def ipv6Filled (p : List UInt8) (out : ParsedPacket) (walked : Walked) : ParsedPacket :=
  { out with
    isIpv6 := true
    srcIp := slice p 8 16
    dstIp := slice p 24 16
    l4Proto := walked.next
    l4Data := p.drop walked.off }

structure Ipv6Header (p : List UInt8) : Prop where
  long : 40 ≤ p.length
  version : byteAt p 0 >>> 4 = 6

theorem parseIpv6_of_header (header : Ipv6Header p) {walked : Walked}
    (walk : walkExtensions p maxHops (byteAt p 6) 40 = some walked) :
    parseIpv6 p out =
      match walked.fragment with
      | none => parseL4 (p.drop walked.off) walked.next (ipv6Filled p out walked)
      | some fragment =>
          let filled :=
            { ipv6Filled p out walked with
              fragOffset := fragment.offset
              fragMore := fragment.more
              fragId := fragment.id
              isFragment := true
              firstFragment := decide (fragment.offset = 0) }
          if fragment.offset = 0 then parseL4 (p.drop walked.off) walked.next filled
          else filled := by
  unfold parseIpv6
  rw [if_neg (Nat.not_lt.mpr header.long), if_neg (not_not.mpr header.version)]
  dsimp only
  rw [walk]
  rfl

theorem header_of_parseIpv6 (plain : out.isIpv6 = false)
    (parsed : (parseIpv6 p out).isIpv6 = true) : Ipv6Header p := by
  unfold parseIpv6 at parsed
  split at parsed
  next =>
    change out.isIpv6 = true at parsed
    rw [plain] at parsed
    cases parsed
  next long =>
    split at parsed
    next =>
      change out.isIpv6 = true at parsed
      rw [plain] at parsed
      cases parsed
    next version => exact ⟨Nat.not_lt.mp long, not_not.mp version⟩

theorem parseIpv6_truncated (header : Ipv6Header p)
    (walk : walkExtensions p maxHops (byteAt p 6) 40 = none) :
    (parseIpv6 p out).payload = out.payload := by
  unfold parseIpv6
  rw [if_neg (Nat.not_lt.mpr header.long), if_neg (not_not.mpr header.version)]
  dsimp only
  rw [walk]

theorem Unparsed.blank_ipv6 (unparsed : Unparsed out) (walked : Walked) :
    Blank (ipv6Filled p out walked) := by
  have l4 := unparsed.l4
  simp only [ParsedPacket.l4View, L4View.mk.injEq] at l4
  simp only [Blank, ParsedPacket.l4View, l4Base, ipv6Filled, l4]

/-- The L3 fields of an IPv6 packet whose headers are complete. -/
theorem parseIpv6_l3View (header : Ipv6Header p) {walked : Walked}
    (walk : walkExtensions p maxHops (byteAt p 6) 40 = some walked) :
    (parseIpv6 p out).l3View =
      match walked.fragment with
      | none => (ipv6Filled p out walked).l3View
      | some fragment =>
          { (ipv6Filled p out walked).l3View with
            isFragment := true
            fragId := fragment.id
            fragOffset := fragment.offset
            fragMore := fragment.more } := by
  rw [parseIpv6_of_header header walk]
  cases walked.fragment with
  | none => exact parseL4_l3View
  | some fragment =>
      dsimp only
      split
      next => exact parseL4_l3View
      next => rfl

/-- What does not depend on the headers. -/
theorem parseIpv6_version (unparsed : Unparsed out) :
    (parseIpv6 p out).isArp = false ∧ (parseIpv6 p out).isIpv4 = false := by
  have l3 := unparsed.l3
  simp only [ParsedPacket.l3View, L3View.mk.injEq] at l3
  by_cases header : Ipv6Header p
  · cases walk : walkExtensions p maxHops (byteAt p 6) 40 with
    | none =>
        unfold parseIpv6
        rw [if_neg (Nat.not_lt.mpr header.long), if_neg (not_not.mpr header.version)]
        dsimp only
        rw [walk]
        exact ⟨l3.1, l3.2.1⟩
    | some walked =>
        have views := @parseIpv6_l3View p out header walked walk
        cases fragment : walked.fragment with
        | none =>
            rw [fragment] at views
            exact ⟨(congrArg L3View.isArp views).trans l3.1,
              (congrArg L3View.isIpv4 views).trans l3.2.1⟩
        | some fragment' =>
            rw [fragment] at views
            exact ⟨(congrArg L3View.isArp views).trans l3.1,
              (congrArg L3View.isIpv4 views).trans l3.2.1⟩
  · unfold parseIpv6
    split
    next => exact ⟨l3.1, l3.2.1⟩
    next long =>
      split
      next => exact ⟨l3.1, l3.2.1⟩
      next version => exact absurd ⟨Nat.not_lt.mp long, not_not.mp version⟩ header

/-- An IPv6 packet in which the walk meets no fragment header. -/
theorem parseIpv6_whole (unparsed : Unparsed out) (header : Ipv6Header p) {walked : Walked}
    (walk : walkExtensions p maxHops (byteAt p 6) 40 = some walked)
    (whole : walked.fragment = none) :
    (parseIpv6 p out).l4View =
      carriedView (parseIpv6 p out) walked.next (p.drop walked.off) := by
  have shape := @parseIpv6_of_header p out header walked walk
  rw [whole] at shape
  rw [shape]
  exact (unparsed.blank_ipv6 walked).l4View_parseL4

end Parsing6

section Packets

variable {frame : List UInt8} {pp : ParsedPacket} {next : UInt8} {headers : Nat}
  {data : List UInt8} {id : UInt32} {piece : Piece}

/-- The whole packet: the frame path does not take it for a fragment, and it gives this data to
its fragments. -/
structure Whole (frame : List UInt8) (pp : ParsedPacket) (headers : Nat) (next : UInt8)
    (data : List UInt8) : Prop where
  accepted : parsePacket frame = some pp
  ip : pp.isIpv4 = true ∨ pp.isIpv6 = true
  whole : pp.isFragment = false
  divided : fragmentable frame pp headers = some (next, data)
  noFragment : pp.isIpv6 = true → next ≠ ip6Frag

/-- The two kinds of packets. -/
theorem Whole.cases (packet : Whole frame pp headers next data) :
    (pp.isArp = false ∧ pp.isIpv4 = true ∧ pp.isIpv6 = false ∧ next = pp.l4Proto ∧
      pp.l4View = carriedView pp next data) ∨
    (pp.isArp = false ∧ pp.isIpv4 = false ∧ pp.isIpv6 = true ∧
      ∃ p out off, Unparsed out ∧ Ipv6Header p ∧ pp = parseIpv6 p out ∧
        skipHeaders p headers (byteAt p 6) 40 = some (next, off) ∧ data = p.drop off) := by
  obtain ⟨p, out, unparsed, ⟨behind, same⟩ | ⟨behind, same⟩⟩ :=
    parsePacket_cases packet.accepted packet.ip
  · left
    obtain ⟨noArp, no6⟩ := @parseIpv4_version p out unparsed
    rw [← same] at noArp no6
    have v4 : pp.isIpv4 = true := packet.ip.resolve_right (by simp [no6])
    have divided := packet.divided
    rw [fragmentable, if_neg (by simp [no6])] at divided
    obtain ⟨rfl, rfl⟩ := Prod.mk.inj (Option.some.inj divided)
    refine ⟨noArp, v4, no6, rfl, ?_⟩
    subst same
    exact parseIpv4_whole unparsed v4 packet.whole
  · right
    obtain ⟨noArp, no4⟩ := @parseIpv6_version p out unparsed
    rw [← same] at noArp no4
    have v6 : pp.isIpv6 = true := packet.ip.resolve_left (by simp [no4])
    have divided := packet.divided
    rw [fragmentable, if_pos v6, behind, Option.bind_some] at divided
    obtain ⟨⟨reached, off⟩, skipped, rest⟩ := Option.map_eq_some_iff.mp divided
    obtain ⟨rfl, rfl⟩ := Prod.mk.inj rest
    have no6 := congrArg L3View.isIpv6 unparsed.l3
    exact ⟨noArp, no4, v6, p, out, off, unparsed, header_of_parseIpv6 no6 (same ▸ v6), same,
      skipped, rfl⟩

/-- The packet looks as its data does, when the walk needs to go no further. -/
theorem Whole.l4View (packet : Whole frame pp headers next data)
    (plain : pp.isIpv6 = true → headers < maxHops ∧ isExtension next = false) :
    pp.l4View = carriedView pp next data := by
  obtain ⟨-, -, -, -, view⟩ | ⟨-, -, v6, p, out, off, unparsed, header, same, skipped, rfl⟩ :=
    packet.cases
  · exact view
  · obtain ⟨few, plain⟩ := plain v6
    have walk := walkExtensions_skip skipped (Nat.le_of_lt few)
    rw [walkExtensions_here plain (packet.noFragment v6)] at walk
    subst same
    exact parseIpv6_whole unparsed header walk rfl

theorem length_payload_parseL4 {proto : UInt8} {data : List UInt8} {out : ParsedPacket}
    (blank : out.payload = []) : (parseL4 data proto out).payload.length ≤ data.length := by
  have nothing : out.payload.length ≤ data.length := by
    rw [blank]
    exact Nat.zero_le _
  have behind (start : Nat) : (data.drop start).length ≤ data.length := by
    rw [List.length_drop]
    exact Nat.sub_le _ _
  have inside (start size : Nat) : (slice data start size).length ≤ data.length :=
    (List.length_take_le' _ _).trans (behind start)
  unfold parseL4 parseTcp parseUdp parseIcmp
  dsimp only
  split_ifs
  all_goals first | exact nothing | exact behind _ | exact inside _ _ | exact Nat.le_refl _

/-- Behind another extension header the packet carries less. -/
theorem Whole.payload_of_extension (packet : Whole frame pp headers next data)
    (v6 : pp.isIpv6 = true) (few : headers < maxHops) (extension : isExtension next = true)
    (something : data ≠ []) : pp.payload ≠ data := by
  obtain ⟨-, -, no6, -⟩ | ⟨-, -, -, p, out, off, unparsed, header, same, skipped, rfl⟩ :=
    packet.cases
  · rw [v6] at no6
    cases no6
  · have filled := List.length_pos_iff.mpr something
    rw [List.length_drop] at filled
    have blank : out.payload = [] := congrArg L4View.payload unparsed.l4
    have walk := walkExtensions_skip skipped (Nat.le_of_lt few)
    intro equal
    cases reached : walkExtensions p (maxHops - headers) next off with
    | none =>
        rw [reached] at walk
        rw [same, parseIpv6_truncated header walk, blank] at equal
        exact something equal.symm
    | some walked =>
        rw [reached] at walk
        have whole := packet.whole
        obtain ⟨hops, left⟩ : ∃ hops, maxHops - headers = hops + 1 :=
          ⟨maxHops - headers - 1, by omega⟩
        rw [left] at reached
        have past := walkExtensions_past extension reached
        have shape := @parseIpv6_of_header p out header walked walk
        cases fragment : walked.fragment with
        | some found =>
            have views := @parseIpv6_l3View p out header walked walk
            rw [fragment] at views
            have set := congrArg L3View.isFragment views
            rw [← same] at set
            exact absurd (set.symm.trans whole) (by simp)
        | none =>
            rw [fragment] at shape
            dsimp only at shape
            have short := @length_payload_parseL4 walked.next (p.drop walked.off)
              (ipv6Filled p out walked) blank
            rw [← shape, ← same, equal, List.length_drop, List.length_drop] at short
            omega

theorem carriedView_extension (extension : isExtension next = true) :
    (carriedView pp next data).payload = data := by
  have other : next ≠ ipProtoTcp ∧ next ≠ ipProtoUdp ∧ ¬ (next = ipProtoIcmp ∨ next = ipProtoIcmpv6) := by
    simp only [isExtension, Bool.or_eq_true, beq_iff_eq] at extension
    rcases extension with ((rfl | rfl) | rfl) | rfl <;> decide
  rw [carriedView, parseL4, if_neg other.1, if_neg other.2.1, if_neg other.2.2]
  rfl

/-- A frame that carries a piece is parsed as that fragment. -/
theorem Whole.parse_carried (packet : Whole frame pp headers next data) {carrier : List UInt8}
    (carries : Carries pp headers next id piece carrier) (something : piece.data ≠ [])
    (several : piece.more = true ∨ 0 < piece.start)
    (few : pp.isIpv6 = true → headers < maxHops) :
    ∃ fp, parsePacket carrier = some fp ∧ fp.l3View = fragmentView pp next id piece := by
  obtain ⟨-, v4, no6, rfl, -⟩ | ⟨-, no4, v6, -⟩ := packet.cases
  · rw [Carries, if_neg (by simp [no6])] at carries
    obtain ⟨p, behind, carried⟩ := carries
    obtain ⟨out, unparsed, parsed, -⟩ := parsePacket_of_behindTags behind
    exact ⟨_, parsed rfl, parse_ipv4Fragment unparsed carried something several v4 no6⟩
  · rw [Carries, if_pos v6] at carries
    obtain ⟨p, off, behind, carried⟩ := carries
    obtain ⟨out, unparsed, -, parsed⟩ := parsePacket_of_behindTags behind
    refine ⟨_, parsed rfl, ?_⟩
    have filled := List.length_pos_iff.mpr something
    rw [← carried.data, List.length_drop] at filled
    have onward := skipHeaders_onward carried.header
    obtain ⟨hops, left⟩ : ∃ hops, maxHops - headers = hops + 1 :=
      ⟨maxHops - headers - 1, by have := few v6; omega⟩
    have walk := walkExtensions_skip carried.header (Nat.le_of_lt (few v6))
    rw [left, walkExtensions_fragment (by omega), carried.next, carried.offset, carried.more,
      carried.id] at walk
    have l3 := unparsed.l3
    simp only [ParsedPacket.l3View, L3View.mk.injEq] at l3
    rw [parseIpv6_l3View ⟨by omega, carried.version⟩ walk]
    simp only [ParsedPacket.l3View, ipv6Filled, fragmentView, L3View.mk.injEq, carried.src,
      carried.dst, carried.data, l3, no4, v6, and_true]
    exact ⟨rfl, rfl⟩

/-- Behind too many headers it is not taken for a fragment. -/
theorem parse_carried_beyond {carrier : List UInt8} (carries : Carries pp headers next id piece carrier)
    (something : piece.data ≠ []) (v6 : pp.isIpv6 = true) (many : maxHops ≤ headers) :
    ∃ fp, parsePacket carrier = some fp ∧ fp.isFragment = false ∧ fp.isIpv6 = true ∧
      fp.isArp = false ∧ fp.srcIp = pp.srcIp := by
  rw [Carries, if_pos v6] at carries
  obtain ⟨p, off, behind, carried⟩ := carries
  obtain ⟨out, unparsed, -, parsed⟩ := parsePacket_of_behindTags behind
  have filled := List.length_pos_iff.mpr something
  rw [← carried.data, List.length_drop] at filled
  have onward := skipHeaders_onward carried.header
  obtain ⟨walked, walk, whole⟩ := walkExtensions_exhausted carried.header many
  have views := @parseIpv6_l3View p out ⟨by omega, carried.version⟩ walked walk
  rw [whole] at views
  have l3 := unparsed.l3
  exact ⟨_, parsed rfl, (congrArg L3View.isFragment views).trans (congrArg L3View.isFragment l3),
    congrArg L3View.isIpv6 views, (congrArg L3View.isArp views).trans (congrArg L3View.isArp l3),
    (congrArg L3View.srcIp views).trans carried.src⟩

end Packets

end Idsm.EthProbe
