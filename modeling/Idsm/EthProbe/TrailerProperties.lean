import Idsm.EthProbe.Bytes
import Idsm.EthProbe.FragmentationProperties

/-! Bytes of a frame behind the declared end of its IP packet. -/

set_option autoImplicit false

namespace Idsm.EthProbe

section Frames

variable {frame p : List UInt8} {ethertype : UInt16} {tagsLeft off : Nat}

theorem skipVlanTags_append {found : UInt16 × Nat}
    (skipped : skipVlanTags frame tagsLeft ethertype off = some found) (trailer : List UInt8) :
    skipVlanTags (frame ++ trailer) tagsLeft ethertype off = some found := by
  induction tagsLeft generalizing ethertype off with
  | zero => exact skipped
  | succ tagsLeft ih =>
      rw [skipVlanTags] at skipped ⊢
      by_cases tagged : ethertype = ethPVlan ∨ ethertype = ethPQinq
      · rw [if_pos tagged] at skipped ⊢
        by_cases short : frame.length < off + 4
        · rw [if_pos short] at skipped
          cases skipped
        · rw [if_neg short] at skipped
          have long : ¬ (frame ++ trailer).length < off + 4 := by
            rw [List.length_append]
            omega
          rw [if_neg long, rd16_append (by omega)]
          exact ih skipped
      · rw [if_neg tagged] at skipped ⊢
        exact skipped

/-- The header fields of a frame are those of the frame with a trailer. -/
theorem parsePacket_append (behind : behindTags frame = some (ethertype, p)) (nonempty : p ≠ []) :
    ∃ out, Unparsed out ∧ ∀ trailer,
      (ethertype = ethPIpv4 →
        parsePacket (frame ++ trailer) = some (parseIpv4 (p ++ trailer) out)) ∧
      (ethertype = ethPIpv6 →
        parsePacket (frame ++ trailer) = some (parseIpv6 (p ++ trailer) out)) := by
  unfold behindTags at behind
  split at behind
  next => cases behind
  next long =>
    obtain ⟨⟨found, off⟩, skipped, rest⟩ := Option.map_eq_some_iff.mp behind
    obtain ⟨rfl, rfl⟩ := Prod.mk.inj rest
    refine ⟨{ ParsedPacket.empty with
      dstMac := slice frame 0 6
      srcMac := slice frame 6 6
      ethertype := found
      vlanTags := (off - 14) / 4 }, ⟨rfl, rfl⟩, fun trailer => ?_⟩
    have inside : off < frame.length := Nat.lt_of_not_le fun past =>
      nonempty (List.drop_eq_nil_of_le past)
    have longer : ¬ (frame ++ trailer).length < 14 := by
      rw [List.length_append]
      omega
    have carried : (frame ++ trailer).drop off = frame.drop off ++ trailer :=
      List.drop_append_of_le_length (by omega)
    constructor
    · rintro rfl
      simp only [parsePacket, if_neg longer, rd16_append (show 12 + 2 ≤ frame.length by omega),
        skipVlanTags_append skipped, slice_append (show 0 + 6 ≤ frame.length by omega),
        slice_append (show 6 + 6 ≤ frame.length by omega), carried]
      rfl
    · rintro rfl
      simp only [parsePacket, if_neg longer, rd16_append (show 12 + 2 ≤ frame.length by omega),
        skipVlanTags_append skipped, slice_append (show 0 + 6 ≤ frame.length by omega),
        slice_append (show 6 + 6 ≤ frame.length by omega), carried]
      rfl

end Frames

section Ipv4

variable {p trailer : List UInt8} {out : ParsedPacket}

variable (long : 20 ≤ p.length) (declared : (rd16 p 2).toNat = p.length)
include long declared

/-- A header that reaches into the trailer is longer than the total length. -/
theorem ipv4Header_append : Ipv4Header (p ++ trailer) ↔ Ipv4Header p := by
  have version : byteAt (p ++ trailer) 0 = byteAt p 0 := byteAt_append (by omega)
  have total : rd16 (p ++ trailer) 2 = rd16 p 2 := rd16_append (by omega)
  constructor
  · intro header
    have inside := header.total
    rw [version, total, declared] at inside
    refine ⟨long, ?_, ⟨?_, inside⟩, ?_⟩
    · exact version ▸ header.version
    · exact version ▸ header.header.1
    · rwa [declared]
  · intro header
    have inside := header.header
    refine ⟨?_, ?_, ?_, ?_⟩
    · rw [List.length_append]
      omega
    · rw [version]
      exact header.version
    · rw [version, List.length_append]
      omega
    · rw [version, total]
      exact header.total

theorem ipv4Data_append (header : Ipv4Header p) : ipv4Data (p ++ trailer) = ipv4Data p := by
  have inside := header.header.2
  unfold ipv4Data
  rw [byteAt_append (by omega), rd16_append (by omega), declared, List.length_append,
    if_pos (Nat.le_add_right _ _), if_pos (Nat.le_refl _)]
  exact slice_append (by omega)

/-- The IPv4 parser stops at the total length. -/
theorem parseIpv4_append : parseIpv4 (p ++ trailer) out = parseIpv4 p out := by
  by_cases header : Ipv4Header p
  · have filled : ipv4Filled (p ++ trailer) out = ipv4Filled p out := by
      simp only [ipv4Filled, rd16_append (show 4 + 2 ≤ p.length by omega),
        rd16_append (show 6 + 2 ≤ p.length by omega), byteAt_append (show 9 < p.length by omega),
        slice_append (show 12 + 4 ≤ p.length by omega),
        slice_append (show 16 + 4 ≤ p.length by omega), ipv4Data_append long declared header]
    rw [parseIpv4_of_header header,
      parseIpv4_of_header ((ipv4Header_append long declared).mpr header), filled,
      ipv4Data_append long declared header, byteAt_append (by omega)]
  · rw [parseIpv4_of_noHeader header,
      parseIpv4_of_noHeader (mt (ipv4Header_append long declared).mp header)]

end Ipv4

section Ipv6

variable {p trailer : List UInt8} {out : ParsedPacket} {hops off : Nat} {next : UInt8}

/-- The chain of extension headers from one of type `next` at `off` ends within the bytes. -/
inductive HeadersEnd (p : List UInt8) : (hops : Nat) → (next : UInt8) → (off : Nat) → Prop
  | exhausted {next : UInt8} {off : Nat} : HeadersEnd p 0 next off
  | upper {hops : Nat} {next : UInt8} {off : Nat} (plain : isExtension next = false)
      (noFragment : next ≠ ip6Frag) : HeadersEnd p (hops + 1) next off
  | fragment {hops off : Nat} (inside : off + 8 ≤ p.length) :
      HeadersEnd p (hops + 1) ip6Frag off
  | extension {hops : Nat} {next : UInt8} {off extLen : Nat}
      (found : extLength p next off = some extLen) (inside : off + extLen ≤ p.length)
      (onward : HeadersEnd p hops (byteAt p off) (off + extLen)) :
      HeadersEnd p (hops + 1) next off

theorem HeadersEnd.walk (ends : HeadersEnd p hops next off) :
    ∃ walked, walkExtensions p hops next off = some walked := by
  induction ends with
  | exhausted => exact ⟨_, rfl⟩
  | upper plain noFragment => exact ⟨_, walkExtensions_here plain noFragment _⟩
  | fragment inside => exact ⟨_, walkExtensions_fragment inside⟩
  | extension found inside _ ih =>
      have positive := le_extLength found
      obtain ⟨walked, walk⟩ := ih
      refine ⟨walked, ?_⟩
      rw [walkExtensions_succ, found]
      dsimp only
      rw [if_neg (by omega), walk]

theorem headersEnd_of_walk {walked : Walked}
    (walk : walkExtensions p hops next off = some walked) : HeadersEnd p hops next off := by
  induction hops generalizing next off with
  | zero => exact .exhausted
  | succ hops ih =>
      rw [walkExtensions_succ] at walk
      cases found : extLength p next off with
      | some extLen =>
          rw [found] at walk
          dsimp only at walk
          by_cases short : p.length < off + 2 ∨ p.length < off + extLen
          · rw [if_pos short] at walk
            cases walk
          · rw [if_neg short] at walk
            exact .extension found (by omega) (ih walk)
      | none =>
          rw [found] at walk
          dsimp only at walk
          by_cases fragment : next = ip6Frag
          · subst fragment
            rw [if_pos rfl] at walk
            by_cases short : p.length < off + 8
            · rw [if_pos short] at walk
              cases walk
            · exact .fragment (by omega)
          · exact .upper (extLength_eq_none.1 found) fragment

/-- A walk that ends without the trailer ends in the same place with it. -/
theorem walkExtensions_append {walked : Walked} (inside : off ≤ p.length)
    (walk : walkExtensions p hops next off = some walked) :
    walkExtensions (p ++ trailer) hops next off = some walked ∧ walked.off ≤ p.length := by
  induction hops generalizing next off with
  | zero =>
      obtain rfl := Option.some.inj walk
      exact ⟨rfl, inside⟩
  | succ hops ih =>
      rw [walkExtensions_succ] at walk ⊢
      cases found : extLength p next off with
      | some extLen =>
          rw [found] at walk
          dsimp only at walk
          by_cases short : p.length < off + 2 ∨ p.length < off + extLen
          · rw [if_pos short] at walk
            cases walk
          · rw [if_neg short] at walk
            have same : extLength (p ++ trailer) next off = some extLen := by
              rw [← found, extLength, byteAt_append (by omega)]
              rfl
            rw [same]
            dsimp only
            rw [if_neg (by rw [List.length_append]; omega), byteAt_append (by omega)]
            exact ih (by omega) walk
      | none =>
          have same : extLength (p ++ trailer) next off = none :=
            extLength_eq_none.2 (extLength_eq_none.1 found)
          rw [found] at walk
          rw [same]
          dsimp only at walk ⊢
          by_cases fragment : next = ip6Frag
          · rw [if_pos fragment] at walk ⊢
            by_cases short : p.length < off + 8
            · rw [if_pos short] at walk
              cases walk
            · rw [if_neg short] at walk
              obtain rfl := Option.some.inj walk
              rw [if_neg (by rw [List.length_append]; omega), byteAt_append (by omega),
                rd16_append (by omega), rd32_append (by omega)]
              exact ⟨rfl, Nat.not_lt.mp short⟩
          · rw [if_neg fragment] at walk ⊢
            obtain rfl := Option.some.inj walk
            exact ⟨rfl, inside⟩

theorem parseIpv6_of_noWalk (header : Ipv6Header p)
    (walk : walkExtensions p maxHops (byteAt p 6) 40 = none) :
    parseIpv6 p out =
      { out with
        isIpv6 := true
        srcIp := slice p 8 16
        dstIp := slice p 24 16
        truncated := true } := by
  unfold parseIpv6
  rw [if_neg (Nat.not_lt.mpr header.long), if_neg (not_not.mpr header.version)]
  dsimp only
  rw [walk]

theorem ipv6Header_append (header : Ipv6Header p) : Ipv6Header (p ++ trailer) := by
  have long := header.long
  refine ⟨?_, ?_⟩
  · rw [List.length_append]
    omega
  · rw [byteAt_append (by omega)]
    exact header.version

/-- A packet that ends in the middle of its headers is not one whose headers end. -/
theorem parseIpv6_noWalk_ne {other : List UInt8} {walked : Walked} (unparsed : Unparsed out)
    (header : Ipv6Header p) (walk : walkExtensions p maxHops (byteAt p 6) 40 = none)
    (otherHeader : Ipv6Header other)
    (otherWalk : walkExtensions other maxHops (byteAt other 6) 40 = some walked) :
    parseIpv6 other out ≠ parseIpv6 p out := by
  intro same
  have l3 := unparsed.l3
  have l4 := unparsed.l4
  simp only [ParsedPacket.l3View, L3View.mk.injEq] at l3
  simp only [ParsedPacket.l4View, L4View.mk.injEq] at l4
  have views := congrArg ParsedPacket.l3View same
  rw [parseIpv6_l3View otherHeader otherWalk, parseIpv6_of_noWalk header walk] at views
  cases split : walked.fragment with
  | some fragment =>
      rw [split] at views
      have isFragment := congrArg L3View.isFragment views
      simp [ParsedPacket.l3View, l3, ParsedPacket.empty] at isFragment
  | none =>
      -- Only a header of type 0 leaves the protocol at 0, and what follows one is payload.
      rw [split] at views
      have protocol : walked.next = 0 := by
        have kept := congrArg L3View.l4Proto views
        simpa [ParsedPacket.l3View, ipv6Filled, l3, ParsedPacket.empty] using kept
      rw [parseIpv6_of_header otherHeader otherWalk, split, parseIpv6_of_noWalk header walk,
        protocol] at same
      have truncated := congrArg ParsedPacket.truncated same
      simp [parseL4, ipProtoTcp, ipProtoUdp, ipProtoIcmp, ipProtoIcmpv6, ipv6Filled, l4,
        ParsedPacket.empty] at truncated

theorem parseIpv6_append_iff (unparsed : Unparsed out) (header : Ipv6Header p) :
    parseIpv6 (p ++ trailer) out = parseIpv6 p out ↔
      trailer = [] ∨ ¬ HeadersEnd (p ++ trailer) maxHops (byteAt p 6) 40 := by
  have long := header.long
  have longer : Ipv6Header (p ++ trailer) := ipv6Header_append header
  have first : byteAt (p ++ trailer) 6 = byteAt p 6 := byteAt_append (by omega)
  constructor
  · intro same
    by_contra differs
    obtain ⟨nonempty, ends⟩ := not_or.mp differs
    obtain ⟨walked, walk⟩ := (not_not.mp ends).walk
    cases without : walkExtensions p maxHops (byteAt p 6) 40 with
    | none =>
        rw [← first] at walk
        exact parseIpv6_noWalk_ne unparsed header without longer walk same
    | some stopped =>
        have inBase : 40 ≤ p.length := by omega
        obtain ⟨again, inside⟩ :
            walkExtensions (p ++ trailer) maxHops (byteAt p 6) 40 = some stopped ∧
              stopped.off ≤ p.length :=
          walkExtensions_append inBase without
        obtain rfl := Option.some.inj (again.symm.trans walk)
        rw [← first] at walk
        have views := congrArg (fun pp => pp.l3View.l4Data.length) same
        simp only [parseIpv6_l3View header without, parseIpv6_l3View longer walk] at views
        have positive := List.length_pos_iff.mpr nonempty
        cases split : stopped.fragment with
        | none =>
            simp only [split, ParsedPacket.l3View, ipv6Filled, List.length_drop,
              List.length_append] at views
            omega
        | some fragment =>
            simp only [split, ParsedPacket.l3View, ipv6Filled, List.length_drop,
              List.length_append] at views
            omega
  · intro harmless
    rcases harmless with rfl | ends
    · rw [List.append_nil]
    · have walk : walkExtensions (p ++ trailer) maxHops (byteAt p 6) 40 = none := by
        cases walk : walkExtensions (p ++ trailer) maxHops (byteAt p 6) 40 with
        | none => rfl
        | some walked => exact absurd (headersEnd_of_walk walk) ends
      have without : walkExtensions p maxHops (byteAt p 6) 40 = none := by
        cases without : walkExtensions p maxHops (byteAt p 6) 40 with
        | none => rfl
        | some walked =>
            have inBase : 40 ≤ p.length := by omega
            have again : walkExtensions (p ++ trailer) maxHops (byteAt p 6) 40 = some walked :=
              (walkExtensions_append inBase without).1
            rw [walk] at again
            cases again
      rw [← first] at walk
      rw [parseIpv6_of_noWalk header without, parseIpv6_of_noWalk longer walk,
        slice_append (by omega), slice_append (by omega)]

end Ipv6

section Declared

inductive IpVersion where
  | v4
  | v6
  deriving DecidableEq, Repr

def IpVersion.ethertype : IpVersion → UInt16
  | .v4 => ethPIpv4
  | .v6 => ethPIpv6

def IpVersion.number : IpVersion → UInt8
  | .v4 => 4
  | .v6 => 6

def IpVersion.headerLength : IpVersion → Nat
  | .v4 => 20
  | .v6 => 40

/-- The length that the header of a packet declares. -/
def IpVersion.declaredLength : IpVersion → List UInt8 → Nat
  | .v4, packet => (rd16 packet 2).toNat
  | .v6, packet => 40 + (rd16 packet 4).toNat

/-- A frame that ends where its IP packet does. -/
structure IpFrame where
  bytes : List UInt8
  version : IpVersion
  packet : List UInt8
  behind : behindTags bytes = some (version.ethertype, packet)
  header : version.headerLength ≤ packet.length
  number : byteAt packet 0 >>> 4 = version.number
  declared : version.declaredLength packet = packet.length

/-- Bytes behind the packet are harmless behind IPv4, and behind IPv6 only where the headers
reach past them too. -/
theorem trailer_ignored_iff (frame : IpFrame) (trailer : List UInt8) :
    parsePacket (frame.bytes ++ trailer) = parsePacket frame.bytes ↔
      frame.version = .v4 ∨ trailer = [] ∨
        ¬ HeadersEnd (frame.packet ++ trailer) maxHops (byteAt frame.packet 6) 40 := by
  obtain ⟨bytes, version, packet, behind, header, number, declared⟩ := frame
  dsimp only
  have nonempty : packet ≠ [] := by
    rintro rfl
    cases version with
    | v4 => cases header
    | v6 => cases header
  obtain ⟨out, unparsed, parsed⟩ := parsePacket_append behind nonempty
  have bare := parsed []
  rw [List.append_nil, List.append_nil] at bare
  cases version with
  | v4 =>
      rw [(parsed trailer).1 rfl, bare.1 rfl, parseIpv4_append header declared]
      exact iff_of_true rfl (.inl rfl)
  | v6 =>
      rw [(parsed trailer).2 rfl, bare.2 rfl, Option.some.injEq,
        parseIpv6_append_iff unparsed ⟨header, number⟩]
      exact ⟨.inr, fun harmless => harmless.resolve_left (nomatch ·)⟩

/-- An IPv6 packet with a TCP header and no payload. -/
def ipv6Acknowledgement : IpFrame where
  bytes := List.replicate 12 2 ++ [0x86, 0xDD] ++ [0x60, 0, 0, 0, 0, 20, 6, 64] ++
    List.replicate 32 1 ++
    [0x1F, 0x90, 0, 80, 0, 0, 0, 7, 0, 0, 0, 9, 0x50, 0x10, 0xFF, 0xFF, 0, 0, 0, 0]
  version := .v6
  packet := [0x60, 0, 0, 0, 0, 20, 6, 64] ++ List.replicate 32 1 ++
    [0x1F, 0x90, 0, 80, 0, 0, 0, 7, 0, 0, 0, 9, 0x50, 0x10, 0xFF, 0xFF, 0, 0, 0, 0]
  behind := by decide
  header := by decide
  number := by decide
  declared := by decide

theorem trailer_becomes_payload :
    (parsePacket ipv6Acknowledgement.bytes).map (·.payload) = some [] ∧
      (parsePacket (ipv6Acknowledgement.bytes ++ [0x41])).map (·.payload) = some [0x41] ∧
      parsePacket (ipv6Acknowledgement.bytes ++ [0x41]) ≠
        parsePacket ipv6Acknowledgement.bytes := by
  have without : (parsePacket ipv6Acknowledgement.bytes).map (·.payload) = some [] := by decide
  have appended : (parsePacket (ipv6Acknowledgement.bytes ++ [0x41])).map (·.payload) =
      some [0x41] := by decide
  refine ⟨without, appended, fun same => ?_⟩
  rw [same, without] at appended
  exact nomatch appended

end Declared

end Idsm.EthProbe
