import Mathlib

/-! The frame parser of the Ethernet probe, `packet.cpp`. A slice of the caller's buffer is
the list of its bytes; a pointer that was not set is the empty slice. -/

set_option autoImplicit false

namespace Idsm.EthProbe

def ipProtoIcmp : UInt8 := 1
def ipProtoTcp : UInt8 := 6
def ipProtoUdp : UInt8 := 17
def ipProtoIcmpv6 : UInt8 := 58

def tcpFin : UInt8 := 0x01
def tcpSyn : UInt8 := 0x02
def tcpRst : UInt8 := 0x04

def ethPIpv4 : UInt16 := 0x0800
def ethPArp : UInt16 := 0x0806
def ethPVlan : UInt16 := 0x8100
def ethPQinq : UInt16 := 0x88A8
def ethPIpv6 : UInt16 := 0x86DD

/-- The extension headers that are skipped. -/
def ip6Hbh : UInt8 := 0
def ip6Rt : UInt8 := 43
def ip6Frag : UInt8 := 44
def ip6Ah : UInt8 := 51
def ip6Dst : UInt8 := 60

structure ParsedPacket where
  srcMac : List UInt8
  dstMac : List UInt8
  ethertype : UInt16
  vlanTags : Nat
  isArp : Bool
  arpOpcode : UInt16
  isIpv4 : Bool
  isIpv6 : Bool
  srcIp : List UInt8
  dstIp : List UInt8
  l4Proto : UInt8
  isFragment : Bool
  firstFragment : Bool
  fragId : UInt32
  fragOffset : Nat
  fragMore : Bool
  srcPort : UInt16
  dstPort : UInt16
  isTcp : Bool
  tcpSeq : UInt32
  tcpAck : UInt32
  tcpFlags : UInt8
  isUdp : Bool
  payload : List UInt8
  l4Data : List UInt8
  truncated : Bool
  deriving DecidableEq, Repr

def ParsedPacket.empty : ParsedPacket where
  srcMac := List.replicate 6 0
  dstMac := List.replicate 6 0
  ethertype := 0
  vlanTags := 0
  isArp := false
  arpOpcode := 0
  isIpv4 := false
  isIpv6 := false
  srcIp := List.replicate 16 0
  dstIp := List.replicate 16 0
  l4Proto := 0
  isFragment := false
  firstFragment := false
  fragId := 0
  fragOffset := 0
  fragMore := false
  srcPort := 0
  dstPort := 0
  isTcp := false
  tcpSeq := 0
  tcpAck := 0
  tcpFlags := 0
  isUdp := false
  payload := []
  l4Data := []
  truncated := false

section Bytes

def byteAt (p : List UInt8) (index : Nat) : UInt8 := p.getD index 0

def rd16 (p : List UInt8) (index : Nat) : UInt16 :=
  (byteAt p index).toUInt16 <<< 8 ||| (byteAt p (index + 1)).toUInt16

def rd32 (p : List UInt8) (index : Nat) : UInt32 :=
  (byteAt p index).toUInt32 <<< 24 ||| (byteAt p (index + 1)).toUInt32 <<< 16 |||
    (byteAt p (index + 2)).toUInt32 <<< 8 ||| (byteAt p (index + 3)).toUInt32

def slice (p : List UInt8) (start length : Nat) : List UInt8 := (p.drop start).take length

/-- An IPv4 address in the first four of sixteen bytes. -/
def ipv4Field (address : List UInt8) : List UInt8 := address ++ List.replicate 12 0

end Bytes

def parseArp (p : List UInt8) (out : ParsedPacket) : ParsedPacket :=
  if p.length < 8 then { out with truncated := true }
  else
    let out := { out with arpOpcode := rd16 p 6 }
    if rd16 p 0 ≠ 1 ∨ rd16 p 2 ≠ ethPIpv4 ∨ byteAt p 4 ≠ 6 ∨ byteAt p 5 ≠ 4 then
      { out with truncated := true }
    else if p.length < 28 then { out with truncated := true }
    else
      { out with
        srcMac := slice p 8 6
        srcIp := ipv4Field (slice p 14 4)
        dstMac := slice p 18 6
        dstIp := ipv4Field (slice p 24 4) }

def parseTcp (p : List UInt8) (out : ParsedPacket) : ParsedPacket :=
  if p.length < 20 then { out with truncated := true }
  else
    let hdrLen := ((byteAt p 12) >>> 4).toNat * 4
    let out :=
      { out with
        isTcp := true
        srcPort := rd16 p 0
        dstPort := rd16 p 2
        tcpSeq := rd32 p 4
        tcpAck := rd32 p 8
        tcpFlags := byteAt p 13 &&& 0x3F }
    if hdrLen < 20 ∨ p.length < hdrLen then { out with truncated := true }
    else { out with payload := p.drop hdrLen }

def parseUdp (p : List UInt8) (out : ParsedPacket) : ParsedPacket :=
  if p.length < 8 then { out with truncated := true }
  else
    let udpLen := (rd16 p 4).toNat
    let payLen := if 8 ≤ udpLen ∧ udpLen ≤ p.length then udpLen - 8 else p.length - 8
    { out with
      isUdp := true
      srcPort := rd16 p 0
      dstPort := rd16 p 2
      payload := slice p 8 payLen }

/-- Type and code stand in the ports. -/
def parseIcmp (p : List UInt8) (out : ParsedPacket) : ParsedPacket :=
  if p.length < 4 then { out with truncated := true }
  else
    { out with
      srcPort := (byteAt p 0).toUInt16
      dstPort := (byteAt p 1).toUInt16
      payload := p.drop 4 }

def parseL4 (p : List UInt8) (proto : UInt8) (out : ParsedPacket) : ParsedPacket :=
  if proto = ipProtoTcp then parseTcp p out
  else if proto = ipProtoUdp then parseUdp p out
  else if proto = ipProtoIcmp ∨ proto = ipProtoIcmpv6 then parseIcmp p out
  else { out with payload := p }

def parseIpv4 (p : List UInt8) (out : ParsedPacket) : ParsedPacket :=
  if p.length < 20 then { out with truncated := true }
  else if byteAt p 0 >>> 4 ≠ 4 then { out with truncated := true }
  else
    let ihl := (byteAt p 0 &&& 0xF).toNat * 4
    if ihl < 20 ∨ p.length < ihl then { out with truncated := true }
    else
      let totalLen := (rd16 p 2).toNat
      if totalLen < ihl then { out with truncated := true }
      else
        -- A frame may be padded behind the packet, or cut off within it.
        let ipLen := if totalLen ≤ p.length then totalLen else p.length
        let flagsOff := rd16 p 6
        let fragMore := flagsOff &&& 0x2000 != 0
        let fragOffset := (flagsOff &&& 0x1FFF).toNat * 8
        let out :=
          { out with
            isIpv4 := true
            fragId := (rd16 p 4).toUInt32
            fragMore
            fragOffset
            isFragment := fragMore || decide (0 < fragOffset)
            firstFragment := decide (fragOffset = 0)
            l4Proto := byteAt p 9
            srcIp := ipv4Field (slice p 12 4)
            dstIp := ipv4Field (slice p 16 4)
            l4Data := slice p ihl (ipLen - ihl) }
        if out.isFragment ∧ ¬ out.firstFragment then out
        else parseL4 (slice p ihl (ipLen - ihl)) out.l4Proto out

/-- What a fragment header says. -/
structure FragmentHeader where
  offset : Nat
  more : Bool
  id : UInt32
  deriving DecidableEq, Repr

/-- Where the walk over the extension headers ends: the next header, its offset, and the
fragment header if one ended the walk. -/
structure Walked where
  next : UInt8
  off : Nat
  fragment : Option FragmentHeader
  deriving DecidableEq, Repr

/-- The length of an extension header other than the fragment header. -/
def extLength (p : List UInt8) (next : UInt8) (off : Nat) : Option Nat :=
  if next = ip6Hbh ∨ next = ip6Rt ∨ next = ip6Dst then some (((byteAt p (off + 1)).toNat + 1) * 8)
  else if next = ip6Ah then some (((byteAt p (off + 1)).toNat + 2) * 4)
  else none

/-- The bounded loop; `none` when a header reaches past the end. -/
def walkExtensions (p : List UInt8) : (hops : Nat) → (next : UInt8) → (off : Nat) → Option Walked
  | 0, next, off => some ⟨next, off, none⟩
  | hops + 1, next, off =>
      match extLength p next off with
      | some extLen =>
          if p.length < off + 2 ∨ p.length < off + extLen then none
          else walkExtensions p hops (byteAt p off) (off + extLen)
      | none =>
          if next = ip6Frag then
            if p.length < off + 8 then none
            else
              let offM := rd16 p (off + 2)
              some ⟨byteAt p off, off + 8,
                some ⟨(offM >>> 3).toNat * 8, offM &&& 1 != 0, rd32 p (off + 4)⟩⟩
          else some ⟨next, off, none⟩

theorem walkExtensions_succ (p : List UInt8) (hops : Nat) (next : UInt8) (off : Nat) :
    walkExtensions p (hops + 1) next off =
      match extLength p next off with
      | some extLen =>
          if p.length < off + 2 ∨ p.length < off + extLen then none
          else walkExtensions p hops (byteAt p off) (off + extLen)
      | none =>
          if next = ip6Frag then
            if p.length < off + 8 then none
            else
              some ⟨byteAt p off, off + 8,
                some ⟨(rd16 p (off + 2) >>> 3).toNat * 8, rd16 p (off + 2) &&& 1 != 0,
                  rd32 p (off + 4)⟩⟩
          else some ⟨next, off, none⟩ := rfl

def maxHops : Nat := 8

def parseIpv6 (p : List UInt8) (out : ParsedPacket) : ParsedPacket :=
  if p.length < 40 then { out with truncated := true }
  else if byteAt p 0 >>> 4 ≠ 6 then { out with truncated := true }
  else
    let out := { out with isIpv6 := true, srcIp := slice p 8 16, dstIp := slice p 24 16 }
    match walkExtensions p maxHops (byteAt p 6) 40 with
    | none => { out with truncated := true }
    | some walked =>
        let out := { out with l4Proto := walked.next, l4Data := p.drop walked.off }
        match walked.fragment with
        | none => parseL4 (p.drop walked.off) walked.next out
        | some fragment =>
            let out :=
              { out with
                fragOffset := fragment.offset
                fragMore := fragment.more
                fragId := fragment.id
                isFragment := true
                firstFragment := decide (fragment.offset = 0) }
            if fragment.offset = 0 then parseL4 (p.drop walked.off) walked.next out else out

/-- Up to two VLAN tags before the innermost ethertype. -/
def skipVlanTags (data : List UInt8) : (tagsLeft : Nat) → (ethertype : UInt16) → (off : Nat) →
    Option (UInt16 × Nat)
  | 0, ethertype, off => some (ethertype, off)
  | tagsLeft + 1, ethertype, off =>
      if ethertype = ethPVlan ∨ ethertype = ethPQinq then
        if data.length < off + 4 then none
        else skipVlanTags data tagsLeft (rd16 data (off + 2)) (off + 4)
      else some (ethertype, off)

def parsePacket (data : List UInt8) : Option ParsedPacket :=
  if data.length < 14 then none
  else
    match skipVlanTags data 2 (rd16 data 12) 14 with
    | none => none
    | some (ethertype, off) =>
        let out :=
          { ParsedPacket.empty with
            dstMac := slice data 0 6
            srcMac := slice data 6 6
            ethertype
            vlanTags := (off - 14) / 4 }
        if ethertype = ethPIpv4 then some (parseIpv4 (data.drop off) out)
        else if ethertype = ethPIpv6 then some (parseIpv6 (data.drop off) out)
        else if ethertype = ethPArp then some (parseArp (data.drop off) { out with isArp := true })
        else none

def parseL4Only (proto : UInt8) (data : List UInt8) (out : ParsedPacket) : ParsedPacket :=
  parseL4 data proto out

end Idsm.EthProbe
