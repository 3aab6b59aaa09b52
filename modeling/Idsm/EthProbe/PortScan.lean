import Idsm.EthProbe.Packet
import Idsm.Foundation.OrderedMap

/-! The port scan detector: the different ports each source addressed within a sliding window. -/

set_option autoImplicit false

namespace Idsm.EthProbe

open Idsm.Foundation

structure PortScanConfig where
  windowMs : UInt32 := 10000
  uniqueThreshold : Nat := 20

/-- What one source sent: times and ports, oldest first, and how often each port stands there. -/
structure SrcState where
  events : List (Nat × UInt16)
  portCounts : OrderedMap Nat UInt32
  alerted : Bool

def SrcState.empty : SrcState := ⟨[], .empty, false⟩

abbrev Sources := OrderedMap (List Nat) SrcState

def key16 (ip : List UInt8) : List Nat := ip.map UInt8.toNat

/-- A count that falls to zero leaves the table. -/
def forgetPort (portCounts : OrderedMap Nat UInt32) (port : UInt16) : OrderedMap Nat UInt32 :=
  match portCounts.find? port.toNat with
  | none => portCounts
  | some count =>
      if count - 1 = 0 then portCounts.erase port.toNat
      else portCounts.insert port.toNat (count - 1)

/-- The events outside the window leave from the front. -/
def expireEvents (windowMs : UInt32) (nowMs : Nat) :
    List (Nat × UInt16) → OrderedMap Nat UInt32 → List (Nat × UInt16) × OrderedMap Nat UInt32
  | [], portCounts => ([], portCounts)
  | (time, port) :: events, portCounts =>
      if windowMs.toNat ≤ nowMs - time then
        expireEvents windowMs nowMs events (forgetPort portCounts port)
      else ((time, port) :: events, portCounts)

/-- The packet that is reported, with the number of ports. -/
structure ScanAlert where
  packet : ParsedPacket
  aux : UInt32
  deriving DecidableEq

def SrcState.feed (cfg : PortScanConfig) (st : SrcState) (pp : ParsedPacket) (nowMs : Nat) :
    SrcState × Option ScanAlert :=
  let (events, portCounts) := expireEvents cfg.windowMs nowMs st.events st.portCounts
  let alerted := if portCounts.entries.length < cfg.uniqueThreshold then false else st.alerted
  let events := events ++ [(nowMs, pp.dstPort)]
  let portCounts := portCounts.insert pp.dstPort.toNat
    ((portCounts.find? pp.dstPort.toNat).getD 0 + 1)
  if cfg.uniqueThreshold ≤ portCounts.entries.length ∧ alerted = false then
    (⟨events, portCounts, true⟩, some ⟨pp, UInt32.ofNat portCounts.entries.length⟩)
  else (⟨events, portCounts, alerted⟩, none)

def Sources.source (sources : Sources) (srcIp : List UInt8) : SrcState :=
  (sources.find? (key16 srcIp)).getD .empty

def PortScan.feed (cfg : PortScanConfig) (sources : Sources) (pp : ParsedPacket) (nowMs : Nat) :
    Sources × Option ScanAlert :=
  if pp.isTcp then
    let (st, alert) := (sources.source pp.srcIp).feed cfg pp nowMs
    (sources.insert (key16 pp.srcIp) st, alert)
  else (sources, none)

end Idsm.EthProbe
