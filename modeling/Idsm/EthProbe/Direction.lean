import Idsm.EthProbe.Pipeline
import Idsm.Foundation.Tail

/-! One direction of a flow, whose stream comes in chunks. -/

set_option autoImplicit false

namespace Idsm.EthProbe

open Idsm.Foundation

/-- Bytes delivered by one packet. -/
structure Chunk where
  packet : ParsedPacket
  data : List UInt8
  deriving DecidableEq

/-- Each chunk with the state it meets. -/
def Probe.chunkStates (probe : Probe) (port : UInt16) (ds : DirState) :
    List Chunk → List (DirState × Chunk)
  | [] => []
  | chunk :: later =>
      (ds, chunk) :: probe.chunkStates port
        (probe.handleStreamData chunk.packet port ds chunk.data).1 later

def streamOf (chunks : List Chunk) : List UInt8 := chunks.flatMap Chunk.data

/-- What the header prefilter reads of a packet. -/
structure SameHeader (pp other : ParsedPacket) : Prop where
  isTcp : other.isTcp = pp.isTcp
  isUdp : other.isUdp = pp.isUdp
  l4Proto : other.l4Proto = pp.l4Proto
  isIpv6 : other.isIpv6 = pp.isIpv6
  srcIp : other.srcIp = pp.srcIp
  dstIp : other.dstIp = pp.dstIp
  srcPort : other.srcPort = pp.srcPort
  dstPort : other.dstPort = pp.dstPort

theorem SameHeader.matchesHeader {rule : Rule} {pp other : ParsedPacket} (same : SameHeader pp other) :
    rule.matchesHeader other = rule.matchesHeader pp := by
  unfold Rule.matchesHeader RuleProto.matches
  rw [same.isTcp, same.isUdp, same.l4Proto, same.isIpv6, same.srcIp, same.dstIp, same.srcPort,
    same.dstPort]

theorem SameHeader.matched {engine : RuleEngine} {pp other : ParsedPacket}
    (same : SameHeader pp other) (bufs : MatchBuffers) :
    engine.matched other bufs = engine.matched pp bufs := by
  unfold RuleEngine.matched Rule.matches
  simp only [same.matchesHeader]

section States

variable {probe : Probe} {port : UInt16} {ds : DirState} {pp : ParsedPacket} {data : List UInt8}

/-- No application parser touches the tail. -/
theorem feedApp_ruleTail : (probe.feedApp pp port ds data).1.ruleTail = ds.ruleTail := by
  unfold Probe.feedApp Probe.feedTlsStream Probe.feedHttpStream feedDoipStream
  dsimp only
  repeat' split
  all_goals rfl

theorem capAcc_ruleTail : ds.capAcc.ruleTail = ds.ruleTail := by
  unfold DirState.capAcc
  split <;> rfl

theorem capAcc_acc : ds.capAcc.acc = ds.acc.rtake streamAccCap := by
  unfold DirState.capAcc
  split
  next =>
    dsimp only
    rw [List.rtake]
  next fits => exact (rtake_eq_self (Nat.le_of_not_lt fits)).symm

end States

def probeSample (rules : List Rule) (noPcre : ∀ rule ∈ rules, rule.pcrePatterns = []) : Probe where
  rules := ⟨rules, noPcre⟩
  isHome := fun _ _ => false
  tlsPort := 443
  httpPort := 80
  httpAltPort := 8080
  tcp := .default

def chunkSample (data : List UInt8) : Chunk :=
  ⟨{ ParsedPacket.empty with isTcp := true, l4Proto := ipProtoTcp, payload := data }, data⟩

end Idsm.EthProbe
