import Idsm.EthProbe.CheckedPacket
import Idsm.EthProbe.TrailerProperties

/-! The frame parser reads only inside the frame, and its slices lie there. -/

set_option autoImplicit false

namespace Idsm.EthProbe

open Idsm.Foundation

variable {data : List UInt8} {p : View} {out : ParsedView} {index : Nat}

section Reads

theorem read_byteAt (inside : p.Inside data.length) (there : index < p.length) :
    p.read data index = .ok (byteAt (p.bytes data) index) :=
  View.read_ok 0 inside there

theorem checked_rd16 (inside : p.Inside data.length) (there : index + 1 < p.length) :
    Checked.rd16 data p index = .ok (rd16 (p.bytes data) index) := by
  rw [Checked.rd16, read_byteAt inside (by omega), Checked.ok_bind, read_byteAt inside there,
    Checked.ok_bind]
  rfl

theorem checked_rd32 (inside : p.Inside data.length) (there : index + 3 < p.length) :
    Checked.rd32 data p index = .ok (rd32 (p.bytes data) index) := by
  rw [Checked.rd32, read_byteAt inside (by omega), Checked.ok_bind,
    read_byteAt inside (by omega), Checked.ok_bind, read_byteAt inside (by omega), Checked.ok_bind,
    read_byteAt inside there, Checked.ok_bind]
  rfl

theorem copy_slice {skipped count : Nat} (inside : p.Inside data.length)
    (there : skipped + count ≤ p.length) :
    p.copy data skipped count = .ok (slice (p.bytes data) skipped count) :=
  View.copy_ok inside there

end Reads

/-- A parser comes to the packet that is expected, and the slices that it sets lie in what it was
given. -/
def ParsesAs (data : List UInt8) (p : View) (out : ParsedView) (result : Checked ParsedView)
    (expected : ParsedPacket) : Prop :=
  ∃ after, result = .ok after ∧ after.packet data = expected ∧
    (after.l4.Within p ∨ after.l4 = out.l4) ∧ (after.payload.Within p ∨ after.payload = out.payload)

theorem parsed_cut :
    ParsesAs data p out (.ok out.cut) { out.packet data with truncated := true } :=
  ⟨out.cut, rfl, rfl, .inr rfl, .inr rfl⟩

theorem parsed_parseTcp (inside : p.Inside data.length) :
    ParsesAs data p out (Checked.parseTcp data p out) (parseTcp (p.bytes data) (out.packet data)) := by
  rw [Checked.parseTcp, parseTcp, View.length_bytes inside]
  by_cases short : p.length < 20
  · rw [if_pos short, if_pos short]
    exact parsed_cut
  · rw [if_neg short, if_neg short]
    simp (disch := omega) only [checked_rd16 inside, checked_rd32 inside, read_byteAt inside,
      Checked.ok_bind]
    by_cases bad : (byteAt (p.bytes data) 12 >>> 4).toNat * 4 < 20 ∨
        p.length < (byteAt (p.bytes data) 12 >>> 4).toNat * 4
    · rw [if_pos bad, if_pos bad]
      exact ⟨_, rfl, rfl, .inr rfl, .inr rfl⟩
    · rw [if_neg bad, if_neg bad, checkedSub_ok (by omega), Checked.ok_bind]
      refine ⟨_, rfl, ?_, .inr rfl, .inl ⟨Nat.le_add_right _ _, by dsimp only; omega⟩⟩
      unfold ParsedView.packet
      rw [View.bytes_rest]

theorem parsed_parseUdp (inside : p.Inside data.length) :
    ParsesAs data p out (Checked.parseUdp data p out) (parseUdp (p.bytes data) (out.packet data)) := by
  rw [Checked.parseUdp, parseUdp, View.length_bytes inside]
  by_cases short : p.length < 8
  · rw [if_pos short, if_pos short]
    exact parsed_cut
  · rw [if_neg short, if_neg short]
    simp (disch := omega) only [checked_rd16 inside, Checked.ok_bind]
    by_cases fits : 8 ≤ (rd16 (p.bytes data) 4).toNat ∧ (rd16 (p.bytes data) 4).toNat ≤ p.length
    · rw [if_pos fits, if_pos fits, checkedSub_ok fits.1, Checked.ok_bind]
      have part : 8 + ((rd16 (p.bytes data) 4).toNat - 8) ≤ p.length := by omega
      refine ⟨_, rfl, ?_, .inr rfl, .inl (View.part_within part)⟩
      unfold ParsedView.packet
      rw [View.bytes_part part]
      rfl
    · rw [if_neg fits, if_neg fits, checkedSub_ok (by omega), Checked.ok_bind]
      have part : 8 + (p.length - 8) ≤ p.length := by omega
      refine ⟨_, rfl, ?_, .inr rfl, .inl (View.part_within part)⟩
      unfold ParsedView.packet
      rw [View.bytes_part part]
      rfl

theorem parsed_parseIcmp (inside : p.Inside data.length) :
    ParsesAs data p out (Checked.parseIcmp data p out)
      (parseIcmp (p.bytes data) (out.packet data)) := by
  rw [Checked.parseIcmp, parseIcmp, View.length_bytes inside]
  by_cases short : p.length < 4
  · rw [if_pos short, if_pos short]
    exact parsed_cut
  · rw [if_neg short, if_neg short]
    simp (disch := omega) only [read_byteAt inside, checkedSub_ok, Checked.ok_bind]
    refine ⟨_, rfl, ?_, .inr rfl, .inl ⟨Nat.le_add_right _ _, by dsimp only; omega⟩⟩
    unfold ParsedView.packet
    rw [View.bytes_rest]

theorem parsed_parseL4 (inside : p.Inside data.length) (proto : UInt8) :
    ParsesAs data p out (Checked.parseL4 data p proto out)
      (parseL4 (p.bytes data) proto (out.packet data)) := by
  rw [Checked.parseL4, parseL4]
  by_cases tcp : proto = ipProtoTcp
  · rw [if_pos tcp, if_pos tcp]
    exact parsed_parseTcp inside
  · rw [if_neg tcp, if_neg tcp]
    by_cases udp : proto = ipProtoUdp
    · rw [if_pos udp, if_pos udp]
      exact parsed_parseUdp inside
    · rw [if_neg udp, if_neg udp]
      by_cases icmp : proto = ipProtoIcmp ∨ proto = ipProtoIcmpv6
      · rw [if_pos icmp, if_pos icmp]
        exact parsed_parseIcmp inside
      · rw [if_neg icmp, if_neg icmp]
        exact ⟨_, rfl, rfl, .inr rfl, .inl ⟨Nat.le_refl _, Nat.le_refl _⟩⟩

/-- What a parser of the transport layer sets lies where its slice lies. -/
theorem ParsesAs.widen {l4 : View} {before : ParsedView} {result : Checked ParsedView}
    {expected : ParsedPacket} (agrees : ParsesAs data l4 before result expected)
    (within : l4.Within p) (from_l4 : before.l4 = l4) (untouched : before.payload = out.payload) :
    ParsesAs data p out result expected := by
  obtain ⟨after, done, same, slice, payload⟩ := agrees
  refine ⟨after, done, same, .inl ?_, ?_⟩
  · cases slice with
    | inl inner => exact inner.trans within
    | inr kept => exact kept ▸ from_l4 ▸ within
  · cases payload with
    | inl inner => exact .inl (inner.trans within)
    | inr kept => exact .inr (kept.trans untouched)

theorem parsed_parseArp (inside : p.Inside data.length) :
    ParsesAs data p out (Checked.parseArp data p out) (parseArp (p.bytes data) (out.packet data)) := by
  rw [Checked.parseArp, parseArp, View.length_bytes inside]
  by_cases short : p.length < 8
  · rw [if_pos short, if_pos short]
    exact parsed_cut
  · rw [if_neg short, if_neg short]
    simp (disch := omega) only [checked_rd16 inside, read_byteAt inside, Checked.ok_bind]
    by_cases other : rd16 (p.bytes data) 0 ≠ 1 ∨ rd16 (p.bytes data) 2 ≠ ethPIpv4 ∨
        byteAt (p.bytes data) 4 ≠ 6 ∨ byteAt (p.bytes data) 5 ≠ 4
    · rw [if_pos other, if_pos other]
      exact ⟨_, rfl, rfl, .inr rfl, .inr rfl⟩
    · rw [if_neg other, if_neg other]
      by_cases cut : p.length < 28
      · rw [if_pos cut, if_pos cut]
        exact ⟨_, rfl, rfl, .inr rfl, .inr rfl⟩
      · rw [if_neg cut, if_neg cut]
        simp (disch := omega) only [copy_slice inside, Checked.ok_bind]
        exact ⟨_, rfl, rfl, .inr rfl, .inr rfl⟩

section Ipv4

/-- Where the data of an IPv4 packet starts and ends. -/
def ipv4HeaderLen (p : List UInt8) : Nat := (byteAt p 0 &&& 0xF).toNat * 4

def ipv4Length (p : List UInt8) : Nat :=
  if (rd16 p 2).toNat ≤ p.length then (rd16 p 2).toNat else p.length

def ipv4View (data : List UInt8) (p : View) : View :=
  ⟨p.start + ipv4HeaderLen (p.bytes data),
    ipv4Length (p.bytes data) - ipv4HeaderLen (p.bytes data)⟩

def ipv4FilledView (data : List UInt8) (p : View) (out : ParsedView) : ParsedView where
  fields := { ipv4Filled (p.bytes data) out.fields with l4Data := out.fields.l4Data }
  payload := out.payload
  l4 := ipv4View data p

variable (header : Ipv4Header (p.bytes data)) (inside : p.Inside data.length)
include header inside

theorem ipv4View_fits : ipv4HeaderLen (p.bytes data) ≤ ipv4Length (p.bytes data) ∧
    ipv4Length (p.bytes data) ≤ p.length := by
  have bounds := header.header.2
  have total := header.total
  rw [← View.length_bytes inside]
  unfold ipv4Length ipv4HeaderLen
  split <;> omega

theorem bytes_ipv4View : (ipv4View data p).bytes data = ipv4Data (p.bytes data) := by
  have fits := ipv4View_fits header inside
  exact View.bytes_part (by omega)

theorem checked_parseIpv4_of_header :
    Checked.parseIpv4 data p out =
      if (ipv4FilledView data p out).fields.isFragment ∧
          ¬ (ipv4FilledView data p out).fields.firstFragment then
        .ok (ipv4FilledView data p out)
      else Checked.parseL4 data (ipv4View data p) (byteAt (p.bytes data) 9)
        (ipv4FilledView data p out) := by
  have long := header.long
  have version := header.version
  have bounds := header.header
  have total := header.total
  have same := View.length_bytes inside
  have fits := ipv4View_fits header inside
  have length : ipv4Length (p.bytes data) = if (rd16 (p.bytes data) 2).toNat ≤ p.length then
      (rd16 (p.bytes data) 2).toNat else p.length := by
    rw [← same]
    rfl
  have headerLen : ipv4HeaderLen (p.bytes data) = (byteAt (p.bytes data) 0 &&& 0xF).toNat * 4 := rfl
  rw [same] at long bounds
  unfold Checked.parseIpv4
  rw [if_neg (Nat.not_lt.mpr long), read_byteAt inside (by omega), Checked.ok_bind,
    if_neg (not_not.mpr version), ← headerLen, if_neg (by omega),
    checked_rd16 inside (by omega), Checked.ok_bind, if_neg (by omega), ← length]
  simp (disch := omega) only [checked_rd16 inside, read_byteAt inside, copy_slice inside,
    checkedSub_ok, Checked.ok_bind]
  rfl

omit header in
theorem checked_parseIpv4_of_noHeader (headerless : ¬ Ipv4Header (p.bytes data)) :
    Checked.parseIpv4 data p out = .ok out.cut := by
  unfold Checked.parseIpv4
  by_cases short : p.length < 20
  · rw [if_pos short]
    rfl
  · rw [if_neg short, read_byteAt inside (by omega), Checked.ok_bind]
    by_cases version : byteAt (p.bytes data) 0 >>> 4 = 4
    · rw [if_neg (not_not.mpr version)]
      have headerLen : ipv4HeaderLen (p.bytes data) = (byteAt (p.bytes data) 0 &&& 0xF).toNat * 4 :=
        rfl
      rw [← headerLen]
      by_cases bad : ipv4HeaderLen (p.bytes data) < 20 ∨ p.length < ipv4HeaderLen (p.bytes data)
      · rw [if_pos bad]
        rfl
      · rw [if_neg bad, checked_rd16 inside (by omega), Checked.ok_bind]
        have less : (rd16 (p.bytes data) 2).toNat < ipv4HeaderLen (p.bytes data) := by
          by_contra reaches
          have same := View.length_bytes inside
          refine headerless ⟨by omega, version, ?_, Nat.not_lt.mp reaches⟩
          rw [← headerLen]
          omega
        rw [if_pos less]
        rfl
    · rw [if_pos version]
      rfl

end Ipv4

theorem parsed_parseIpv4 (inside : p.Inside data.length) :
    ParsesAs data p out (Checked.parseIpv4 data p out)
      (parseIpv4 (p.bytes data) (out.packet data)) := by
  by_cases header : Ipv4Header (p.bytes data)
  · have fits := ipv4View_fits header inside
    have within : (ipv4View data p).Within p := View.part_within (by omega)
    have filled : (ipv4FilledView data p out).packet data =
        ipv4Filled (p.bytes data) (out.packet data) := by
      rw [ipv4Filled, ← bytes_ipv4View header inside]
      rfl
    rw [parseIpv4_of_header header, checked_parseIpv4_of_header header inside, ← filled,
      ← bytes_ipv4View header inside]
    by_cases middle : (ipv4FilledView data p out).fields.isFragment ∧
        ¬ (ipv4FilledView data p out).fields.firstFragment
    · rw [if_pos middle]
      refine ⟨_, rfl, ?_, .inl within, .inr rfl⟩
      exact (if_pos middle).symm
    · rw [if_neg middle]
      have parsed := @parsed_parseL4 data (ipv4View data p) (ipv4FilledView data p out)
        (within.inside inside) (byteAt (p.bytes data) 9)
      have first : ¬ (((ipv4FilledView data p out).packet data).isFragment ∧
          ¬ ((ipv4FilledView data p out).packet data).firstFragment) := middle
      rw [if_neg first]
      exact parsed.widen within rfl rfl
  · rw [parseIpv4_of_noHeader header, checked_parseIpv4_of_noHeader inside header]
    exact parsed_cut

section Ipv6

/-- The walk reads only inside, and ends inside. -/
theorem checked_walkExtensions (inside : p.Inside data.length) {hops off : Nat} {next : UInt8}
    (reached : off ≤ p.length) :
    Checked.walkExtensions data p hops next off = .ok (walkExtensions (p.bytes data) hops next off) ∧
      ∀ walked, walkExtensions (p.bytes data) hops next off = some walked →
        walked.off ≤ p.length := by
  have same := View.length_bytes inside
  induction hops generalizing next off with
  | zero =>
      refine ⟨rfl, fun walked walk => ?_⟩
      obtain rfl := Option.some.inj walk
      exact reached
  | succ hops ih =>
      rw [walkExtensions_succ, Checked.walkExtensions, extLength, same]
      by_cases option : next = ip6Hbh ∨ next = ip6Rt ∨ next = ip6Dst
      · rw [if_pos option, if_pos option]
        by_cases short : p.length < off + 2
        · rw [if_pos short]
          dsimp only
          rw [if_pos (.inl short)]
          exact ⟨rfl, by rintro _ ⟨⟩⟩
        · rw [if_neg short, read_byteAt inside (by omega), Checked.ok_bind,
            read_byteAt inside (by omega), Checked.ok_bind]
          dsimp only
          by_cases long : p.length < off + ((byteAt (p.bytes data) (off + 1)).toNat + 1) * 8
          · rw [if_pos long, if_pos (.inr long)]
            exact ⟨rfl, by rintro _ ⟨⟩⟩
          · rw [if_neg long, if_neg (not_or.mpr ⟨short, long⟩)]
            exact ih (Nat.not_lt.mp long)
      · rw [if_neg option, if_neg option]
        by_cases auth : next = ip6Ah
        · rw [if_pos auth, if_pos auth]
          by_cases short : p.length < off + 2
          · rw [if_pos short]
            dsimp only
            rw [if_pos (.inl short)]
            exact ⟨rfl, by rintro _ ⟨⟩⟩
          · rw [if_neg short, read_byteAt inside (by omega), Checked.ok_bind,
              read_byteAt inside (by omega), Checked.ok_bind]
            dsimp only
            by_cases long : p.length < off + ((byteAt (p.bytes data) (off + 1)).toNat + 2) * 4
            · rw [if_pos long, if_pos (.inr long)]
              exact ⟨rfl, by rintro _ ⟨⟩⟩
            · rw [if_neg long, if_neg (not_or.mpr ⟨short, long⟩)]
              exact ih (Nat.not_lt.mp long)
        · rw [if_neg auth, if_neg auth]
          dsimp only
          by_cases fragment : next = ip6Frag
          · rw [if_pos fragment, if_pos fragment]
            by_cases short : p.length < off + 8
            · rw [if_pos short, if_pos short]
              exact ⟨rfl, by rintro _ ⟨⟩⟩
            · rw [if_neg short, if_neg short]
              simp (disch := omega) only [read_byteAt inside, checked_rd16 inside,
                checked_rd32 inside, Checked.ok_bind]
              refine ⟨rfl, fun walked walk => ?_⟩
              obtain rfl := Option.some.inj walk
              exact Nat.not_lt.mp short
          · rw [if_neg fragment, if_neg fragment]
            refine ⟨rfl, fun walked walk => ?_⟩
            obtain rfl := Option.some.inj walk
            exact reached

/-- The fields before the walk over the headers. -/
def ipv6Started (data : List UInt8) (p : View) (out : ParsedView) : ParsedView :=
  { out with fields := { out.fields with
      isIpv6 := true
      srcIp := slice (p.bytes data) 8 16
      dstIp := slice (p.bytes data) 24 16 } }

def ipv6View (p : View) (walked : Walked) : View :=
  ⟨p.start + walked.off, p.length - walked.off⟩

/-- The fields behind the walk, with those of a fragment header if there was one. -/
def ipv6FilledView (data : List UInt8) (p : View) (out : ParsedView) (walked : Walked) :
    ParsedView :=
  let out := { ipv6Started data p out with
    fields := { (ipv6Started data p out).fields with l4Proto := walked.next }
    l4 := ipv6View p walked }
  match walked.fragment with
  | none => out
  | some fragment =>
      { out with
        fields := { out.fields with
          fragOffset := fragment.offset
          fragMore := fragment.more
          fragId := fragment.id
          isFragment := true
          firstFragment := decide (fragment.offset = 0) } }

variable (inside : p.Inside data.length)
include inside

theorem checked_parseIpv6_of_header (header : Ipv6Header (p.bytes data)) :
    Checked.parseIpv6 data p out =
      match walkExtensions (p.bytes data) maxHops (byteAt (p.bytes data) 6) 40 with
      | none => .ok (ipv6Started data p out).cut
      | some walked =>
          if (walked.fragment.map FragmentHeader.offset).getD 0 = 0 then
            Checked.parseL4 data (ipv6View p walked) walked.next (ipv6FilledView data p out walked)
          else .ok (ipv6FilledView data p out walked) := by
  have long := header.long
  rw [View.length_bytes inside] at long
  obtain ⟨walk, ends⟩ := @checked_walkExtensions data p inside maxHops 40
    (byteAt (p.bytes data) 6) long
  unfold Checked.parseIpv6
  rw [if_neg (Nat.not_lt.mpr long), read_byteAt inside (by omega), Checked.ok_bind,
    if_neg (not_not.mpr header.version), read_byteAt inside (by omega), Checked.ok_bind,
    copy_slice inside (by omega), Checked.ok_bind, copy_slice inside (by omega), Checked.ok_bind,
    walk, Checked.ok_bind]
  cases found : walkExtensions (p.bytes data) maxHops (byteAt (p.bytes data) 6) 40 with
  | none => rfl
  | some walked =>
      have reached := ends walked found
      obtain ⟨next, off, fragment⟩ := walked
      cases fragment with
      | none =>
          dsimp only at reached ⊢
          rw [if_pos reached, checkedSub_ok reached, Checked.ok_bind]
          rfl
      | some fragment =>
          dsimp only at reached ⊢
          rw [if_pos reached, checkedSub_ok reached]
          rfl

theorem checked_parseIpv6_of_noHeader (headerless : ¬ Ipv6Header (p.bytes data)) :
    Checked.parseIpv6 data p out = .ok out.cut := by
  unfold Checked.parseIpv6
  by_cases short : p.length < 40
  · rw [if_pos short]
    rfl
  · rw [if_neg short, read_byteAt inside (by omega), Checked.ok_bind]
    have same := View.length_bytes inside
    have version : byteAt (p.bytes data) 0 >>> 4 ≠ 6 :=
      fun six => headerless ⟨by omega, six⟩
    rw [if_pos version]
    rfl

theorem parsed_parseIpv6 :
    ParsesAs data p out (Checked.parseIpv6 data p out)
      (parseIpv6 (p.bytes data) (out.packet data)) := by
  by_cases header : Ipv6Header (p.bytes data)
  · have long := header.long
    rw [View.length_bytes inside] at long
    obtain ⟨_, ends⟩ := @checked_walkExtensions data p inside maxHops 40
      (byteAt (p.bytes data) 6) long
    rw [checked_parseIpv6_of_header inside header]
    cases found : walkExtensions (p.bytes data) maxHops (byteAt (p.bytes data) 6) 40 with
    | none =>
        rw [parseIpv6_of_noWalk header found]
        exact ⟨_, rfl, rfl, .inr rfl, .inr rfl⟩
    | some walked =>
        have reached := ends walked found
        have within : (ipv6View p walked).Within p := View.part_within (by omega)
        have carried : (ipv6View p walked).bytes data = (p.bytes data).drop walked.off :=
          View.bytes_rest _
        have parsed := @parsed_parseL4 data (ipv6View p walked) (ipv6FilledView data p out walked)
          (within.inside inside) walked.next
        rw [parseIpv6_of_header header found]
        obtain ⟨next, off, fragment⟩ := walked
        rw [carried] at parsed
        cases fragment with
        | none =>
            have filled : (ipv6FilledView data p out ⟨next, off, none⟩).packet data =
                ipv6Filled (p.bytes data) (out.packet data) ⟨next, off, none⟩ := by
              rw [ipv6Filled, ← carried]
              rfl
            rw [filled] at parsed
            exact parsed.widen within rfl rfl
        | some fragment =>
            have filled : (ipv6FilledView data p out ⟨next, off, some fragment⟩).packet data =
                { ipv6Filled (p.bytes data) (out.packet data) ⟨next, off, some fragment⟩ with
                  fragOffset := fragment.offset
                  fragMore := fragment.more
                  fragId := fragment.id
                  isFragment := true
                  firstFragment := decide (fragment.offset = 0) } := by
              rw [ipv6Filled, ← carried]
              rfl
            rw [filled] at parsed
            change ParsesAs data p out (if fragment.offset = 0 then _ else _)
              (if fragment.offset = 0 then _ else _)
            by_cases first : fragment.offset = 0
            · rw [if_pos first, if_pos first]
              exact parsed.widen within rfl rfl
            · rw [if_neg first, if_neg first]
              exact ⟨_, rfl, filled, .inl within, .inr rfl⟩
  · have same := View.length_bytes inside
    have refused : parseIpv6 (p.bytes data) (out.packet data) =
        { out.packet data with truncated := true } := by
      unfold parseIpv6
      by_cases short : (p.bytes data).length < 40
      · rw [if_pos short]
      · rw [if_neg short, if_pos fun six => header ⟨Nat.not_lt.mp short, six⟩]
    rw [checked_parseIpv6_of_noHeader inside header, refused]
    exact parsed_cut

end Ipv6

section Frame

theorem checked_skipVlanTags {tagsLeft off : Nat} {ethertype : UInt16} (reached : off ≤ data.length) :
    Checked.skipVlanTags data tagsLeft ethertype off =
        .ok (skipVlanTags data tagsLeft ethertype off) ∧
      ∀ inner last, skipVlanTags data tagsLeft ethertype off = some (inner, last) →
        last ≤ data.length := by
  induction tagsLeft generalizing ethertype off with
  | zero =>
      refine ⟨rfl, fun inner last skipped => ?_⟩
      cases skipped
      exact reached
  | succ tagsLeft ih =>
      rw [Checked.skipVlanTags, skipVlanTags]
      by_cases tag : ethertype = ethPVlan ∨ ethertype = ethPQinq
      · rw [if_pos tag, if_pos tag]
        by_cases short : data.length < off + 4
        · rw [if_pos short, if_pos short]
          exact ⟨rfl, by rintro _ _ ⟨⟩⟩
        · rw [if_neg short, if_neg short]
          have length : (View.whole data).length = data.length := rfl
          have inner := @checked_rd16 data (.whole data) (off + 2) View.whole_inside
            (by rw [length]; omega)
          rw [View.bytes_whole] at inner
          rw [inner, Checked.ok_bind]
          exact ih (Nat.not_lt.mp short)
      · rw [if_neg tag, if_neg tag]
        refine ⟨rfl, fun inner last skipped => ?_⟩
        cases skipped
        exact reached

/-- What a part of the frame is parsed to stands for the parsed packet, and its slices lie in the
frame. -/
def StandsFor (data : List UInt8) (result : Checked (Option ParsedView))
    (expected : Option ParsedPacket) : Prop :=
  ∃ parsed, result = .ok parsed ∧ expected = parsed.map (ParsedView.packet data) ∧
    ∀ after ∈ parsed, after.payload.Inside data.length ∧ after.l4.Inside data.length

theorem standsFor_refused : StandsFor data (.ok none) none :=
  ⟨none, rfl, rfl, fun _ member => nomatch member⟩

/-- Slices that were not set before lie in the frame when they are set in a part of it. -/
theorem ParsesAs.standsFor {result : Checked ParsedView} {expected : ParsedPacket}
    (parsed : ParsesAs data p out result expected) (inside : p.Inside data.length)
    (payload : out.payload = .null) (l4 : out.l4 = .null) :
    StandsFor data (result >>= fun after => .ok (some after)) (some expected) := by
  obtain ⟨after, done, same, slice, carried⟩ := parsed
  refine ⟨some after, ?_, congrArg some same.symm, ?_⟩
  · rw [done, Checked.ok_bind]
  · intro found member
    obtain rfl := Option.some.inj member
    constructor
    · cases carried with
      | inl within => exact within.inside inside
      | inr kept => exact kept ▸ payload ▸ View.null_inside _
    · cases slice with
      | inl within => exact within.inside inside
      | inr kept => exact kept ▸ l4 ▸ View.null_inside _

theorem checked_parsePacket (data : List UInt8) :
    StandsFor data (Checked.parsePacket data) (parsePacket data) := by
  rw [Checked.parsePacket, parsePacket]
  by_cases short : data.length < 14
  · rw [if_pos short, if_pos short]
    exact standsFor_refused
  · rw [if_neg short, if_neg short]
    have length : (View.whole data).length = data.length := rfl
    have whole := @View.whole_inside _ data
    have dst := @copy_slice data (.whole data) 0 6 whole (by rw [length]; omega)
    have src := @copy_slice data (.whole data) 6 6 whole (by rw [length]; omega)
    have outer := @checked_rd16 data (.whole data) 12 whole (by rw [length]; omega)
    rw [View.bytes_whole] at dst src outer
    obtain ⟨skip, ends⟩ := @checked_skipVlanTags data 2 14 (rd16 data 12) (Nat.not_lt.mp short)
    dsimp only
    rw [dst, Checked.ok_bind, src, Checked.ok_bind, outer, Checked.ok_bind, skip, Checked.ok_bind]
    cases skipped : skipVlanTags data 2 (rd16 data 12) 14 with
    | none => exact standsFor_refused
    | some found =>
        obtain ⟨ethertype, off⟩ := found
        have reached := ends ethertype off skipped
        dsimp only
        rw [checkedSub_ok reached, Checked.ok_bind]
        have inside : (⟨off, data.length - off⟩ : View).Inside data.length := by
          change off + (data.length - off) ≤ data.length
          omega
        have bytes : (⟨off, data.length - off⟩ : View).bytes data = data.drop off :=
          List.take_of_length_le (by rw [List.length_drop])
        by_cases ipv4 : ethertype = ethPIpv4
        · rw [if_pos ipv4, if_pos ipv4, ← bytes]
          exact (parsed_parseIpv4 inside).standsFor inside rfl rfl
        · rw [if_neg ipv4, if_neg ipv4]
          by_cases ipv6 : ethertype = ethPIpv6
          · rw [if_pos ipv6, if_pos ipv6, ← bytes]
            exact (parsed_parseIpv6 inside).standsFor inside rfl rfl
          · rw [if_neg ipv6, if_neg ipv6]
            by_cases arp : ethertype = ethPArp
            · rw [if_pos arp, if_pos arp, ← bytes]
              exact (parsed_parseArp inside).standsFor inside rfl rfl
            · rw [if_neg arp, if_neg arp]
              exact standsFor_refused

/-- Frames and reassembled datagrams of every length are parsed without a read behind their end;
the slices that are set lie inside. -/
theorem packet_parser_bounds (data : List UInt8) :
    StandsFor data (Checked.parsePacket data) (parsePacket data) ∧
      ∀ proto out, ParsesAs data (.whole data) out (Checked.parseL4Only data proto out)
        (parseL4Only proto data (out.packet data)) := by
  refine ⟨checked_parsePacket data, fun proto out => ?_⟩
  have parsed := @parsed_parseL4 data (.whole data) out View.whole_inside proto
  rw [View.bytes_whole] at parsed
  exact parsed

end Frame

end Idsm.EthProbe
