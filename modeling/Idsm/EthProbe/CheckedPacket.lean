import Idsm.EthProbe.Packet
import Idsm.Foundation.CheckedReads

/-! `packet.cpp` with its pointers: every read names its index, every difference of lengths is
checked, and the slices of the result point into the frame. -/

set_option autoImplicit false

namespace Idsm.EthProbe

open Idsm.Foundation

/-- A packet whose slices are pointers; `fields` holds the rest. -/
structure ParsedView where
  fields : ParsedPacket
  payload : View
  l4 : View
  deriving DecidableEq, Repr

def ParsedView.empty : ParsedView := ⟨.empty, .null, .null⟩

/-- The packet with the bytes that its slices point to. -/
def ParsedView.packet (data : List UInt8) (out : ParsedView) : ParsedPacket :=
  { out.fields with payload := out.payload.bytes data, l4Data := out.l4.bytes data }

def ParsedView.cut (out : ParsedView) : ParsedView :=
  { out with fields := { out.fields with truncated := true } }

namespace Checked

variable (data : List UInt8)

def rd16 (p : View) (index : Nat) : Checked UInt16 := do
  let high ← p.read data index
  let low ← p.read data (index + 1)
  return high.toUInt16 <<< 8 ||| low.toUInt16

def rd32 (p : View) (index : Nat) : Checked UInt32 := do
  let first ← p.read data index
  let second ← p.read data (index + 1)
  let third ← p.read data (index + 2)
  let fourth ← p.read data (index + 3)
  return first.toUInt32 <<< 24 ||| second.toUInt32 <<< 16 ||| third.toUInt32 <<< 8 |||
    fourth.toUInt32

def parseArp (p : View) (out : ParsedView) : Checked ParsedView :=
  if p.length < 8 then return out.cut
  else do
    let htype ← rd16 data p 0
    let ptype ← rd16 data p 2
    let hlen ← p.read data 4
    let plen ← p.read data 5
    let opcode ← rd16 data p 6
    let out := { out with fields := { out.fields with arpOpcode := opcode } }
    if htype ≠ 1 ∨ ptype ≠ ethPIpv4 ∨ hlen ≠ 6 ∨ plen ≠ 4 then return out.cut
    else if p.length < 8 + 2 * (6 + 4) then return out.cut
    else do
      let srcMac ← p.copy data 8 6
      let srcIp ← p.copy data 14 4
      let dstMac ← p.copy data 18 6
      let dstIp ← p.copy data 24 4
      return { out with
        fields := { out.fields with
          srcMac
          srcIp := ipv4Field srcIp
          dstMac
          dstIp := ipv4Field dstIp } }

def parseTcp (p : View) (out : ParsedView) : Checked ParsedView :=
  if p.length < 20 then return out.cut
  else do
    let srcPort ← rd16 data p 0
    let dstPort ← rd16 data p 2
    let tcpSeq ← rd32 data p 4
    let tcpAck ← rd32 data p 8
    let offset ← p.read data 12
    let flags ← p.read data 13
    let hdrLen := (offset >>> 4).toNat * 4
    let out := { out with
      fields := { out.fields with
        isTcp := true
        srcPort
        dstPort
        tcpSeq
        tcpAck
        tcpFlags := flags &&& 0x3F } }
    if hdrLen < 20 ∨ p.length < hdrLen then return out.cut
    else do
      let rest ← checkedSub p.length hdrLen
      return { out with payload := ⟨p.start + hdrLen, rest⟩ }

def parseUdp (p : View) (out : ParsedView) : Checked ParsedView :=
  if p.length < 8 then return out.cut
  else do
    let srcPort ← rd16 data p 0
    let dstPort ← rd16 data p 2
    let udpLen := (← rd16 data p 4).toNat
    let payLen ←
      if 8 ≤ udpLen ∧ udpLen ≤ p.length then checkedSub udpLen 8 else checkedSub p.length 8
    return { out with
      fields := { out.fields with isUdp := true, srcPort, dstPort }
      payload := ⟨p.start + 8, payLen⟩ }

def parseIcmp (p : View) (out : ParsedView) : Checked ParsedView :=
  if p.length < 4 then return out.cut
  else do
    let type ← p.read data 0
    let code ← p.read data 1
    let rest ← checkedSub p.length 4
    return { out with
      fields := { out.fields with srcPort := type.toUInt16, dstPort := code.toUInt16 }
      payload := ⟨p.start + 4, rest⟩ }

def parseL4 (p : View) (proto : UInt8) (out : ParsedView) : Checked ParsedView :=
  if proto = ipProtoTcp then parseTcp data p out
  else if proto = ipProtoUdp then parseUdp data p out
  else if proto = ipProtoIcmp ∨ proto = ipProtoIcmpv6 then parseIcmp data p out
  else return { out with payload := p }

def parseIpv4 (p : View) (out : ParsedView) : Checked ParsedView :=
  if p.length < 20 then return out.cut
  else do
    let verIhl ← p.read data 0
    if verIhl >>> 4 ≠ 4 then return out.cut
    else
      let ihl := (verIhl &&& 0xF).toNat * 4
      if ihl < 20 ∨ p.length < ihl then return out.cut
      else do
        let totalLen := (← rd16 data p 2).toNat
        if totalLen < ihl then return out.cut
        else do
          let ipLen := if totalLen ≤ p.length then totalLen else p.length
          let fragId ← rd16 data p 4
          let flagsOff ← rd16 data p 6
          let l4Proto ← p.read data 9
          let srcIp ← p.copy data 12 4
          let dstIp ← p.copy data 16 4
          let l4Len ← checkedSub ipLen ihl
          let fragMore := flagsOff &&& 0x2000 != 0
          let fragOffset := (flagsOff &&& 0x1FFF).toNat * 8
          let l4 : View := ⟨p.start + ihl, l4Len⟩
          let out :=
            { fields := { out.fields with
                isIpv4 := true
                fragId := fragId.toUInt32
                fragMore
                fragOffset
                isFragment := fragMore || decide (0 < fragOffset)
                firstFragment := decide (fragOffset = 0)
                l4Proto
                srcIp := ipv4Field srcIp
                dstIp := ipv4Field dstIp }
              payload := out.payload
              l4 }
          if out.fields.isFragment ∧ ¬ out.fields.firstFragment then return out
          else parseL4 data l4 l4Proto out

/-- The bounded loop over the extension headers; `none` when one reaches past the end. -/
def walkExtensions (p : View) : (hops : Nat) → (next : UInt8) → (off : Nat) →
    Checked (Option Walked)
  | 0, next, off => return some ⟨next, off, none⟩
  | hops + 1, next, off =>
      if next = ip6Hbh ∨ next = ip6Rt ∨ next = ip6Dst then
        if p.length < off + 2 then return none
        else do
          let following ← p.read data off
          let extLen := ((← p.read data (off + 1)).toNat + 1) * 8
          if p.length < off + extLen then return none
          else walkExtensions p hops following (off + extLen)
      else if next = ip6Ah then
        if p.length < off + 2 then return none
        else do
          let following ← p.read data off
          let extLen := ((← p.read data (off + 1)).toNat + 2) * 4
          if p.length < off + extLen then return none
          else walkExtensions p hops following (off + extLen)
      else if next = ip6Frag then
        if p.length < off + 8 then return none
        else do
          let following ← p.read data off
          let offM ← rd16 data p (off + 2)
          let id ← rd32 data p (off + 4)
          return some ⟨following, off + 8, some ⟨(offM >>> 3).toNat * 8, offM &&& 1 != 0, id⟩⟩
      else return some ⟨next, off, none⟩

def parseIpv6 (p : View) (out : ParsedView) : Checked ParsedView :=
  if p.length < 40 then return out.cut
  else do
    let version ← p.read data 0
    if version >>> 4 ≠ 6 then return out.cut
    else do
      let next ← p.read data 6
      let srcIp ← p.copy data 8 16
      let dstIp ← p.copy data 24 16
      let out := { out with fields := { out.fields with isIpv6 := true, srcIp, dstIp } }
      match ← walkExtensions data p maxHops next 40 with
      | none => return out.cut
      | some walked =>
          let l4 : View :=
            if walked.off ≤ p.length then ⟨p.start + walked.off, p.length - walked.off⟩ else .null
          let out := { out with fields := { out.fields with l4Proto := walked.next }, l4 }
          match walked.fragment with
          | none => do
              let rest ← checkedSub p.length walked.off
              parseL4 data ⟨p.start + walked.off, rest⟩ walked.next out
          | some fragment =>
              let out := { out with
                fields := { out.fields with
                  fragOffset := fragment.offset
                  fragMore := fragment.more
                  fragId := fragment.id
                  isFragment := true
                  firstFragment := decide (fragment.offset = 0) } }
              if fragment.offset = 0 then do
                let rest ← checkedSub p.length walked.off
                parseL4 data ⟨p.start + walked.off, rest⟩ walked.next out
              else return out

/-- Up to two VLAN tags before the innermost ethertype. -/
def skipVlanTags : (tagsLeft : Nat) → (ethertype : UInt16) → (off : Nat) →
    Checked (Option (UInt16 × Nat))
  | 0, ethertype, off => return some (ethertype, off)
  | tagsLeft + 1, ethertype, off =>
      if ethertype = ethPVlan ∨ ethertype = ethPQinq then
        if data.length < off + 4 then return none
        else do
          let inner ← rd16 data (.whole data) (off + 2)
          skipVlanTags tagsLeft inner (off + 4)
      else return some (ethertype, off)

/-- `none` when the frame is refused. -/
def parsePacket : Checked (Option ParsedView) :=
  if data.length < 14 then return none
  else do
    let frame := View.whole data
    let dstMac ← frame.copy data 0 6
    let srcMac ← frame.copy data 6 6
    let outer ← rd16 data frame 12
    match ← skipVlanTags data 2 outer 14 with
    | none => return none
    | some (ethertype, off) =>
        let out := { ParsedView.empty with
          fields := { ParsedPacket.empty with
            dstMac
            srcMac
            ethertype
            vlanTags := (off - 14) / 4 } }
        let rest ← checkedSub data.length off
        let p : View := ⟨off, rest⟩
        if ethertype = ethPIpv4 then return some (← parseIpv4 data p out)
        else if ethertype = ethPIpv6 then return some (← parseIpv6 data p out)
        else if ethertype = ethPArp then
          return some (← parseArp data p
            { out with fields := { out.fields with isArp := true } })
        else return none

def parseL4Only (proto : UInt8) (out : ParsedView) : Checked ParsedView :=
  parseL4 data (.whole data) proto out

end Checked

end Idsm.EthProbe
