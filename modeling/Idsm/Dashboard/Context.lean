import Idsm.EthProbe.Bytes
import Idsm.IdsRm.JsonPayload

/-! The context of an Ethernet alert, from the probe that writes it to the dashboard that
shows it. Both dashboard servers decode it with the same functions. -/

set_option autoImplicit false

namespace Idsm.EthProbe

/-- An alert as `report_alert` gets it. -/
structure ReportedAlert where
  detectorType : UInt8
  proto : UInt8
  srcPort : UInt16
  dstPort : UInt16
  srcIp : Vector UInt8 16
  dstIp : Vector UInt8 16
  count : UInt32
  aux : UInt32
  deriving DecidableEq

def be32 (value : UInt32) : List UInt8 :=
  [(value >>> 24).toUInt8, (value >>> 16).toUInt8, (value >>> 8).toUInt8, value.toUInt8]

def serializeContext (a : ReportedAlert) : List UInt8 :=
  [a.detectorType, a.proto] ++ be16 a.srcPort ++ be16 a.dstPort ++ a.srcIp.toList ++
    a.dstIp.toList ++ be32 a.count ++ be32 a.aux

/-- The address of a packet, which the parser copies to the front of the sixteen bytes. -/
inductive IpAddress where
  | v4 (bytes : Vector UInt8 4)
  | v6 (bytes : Vector UInt8 16)
  deriving DecidableEq

def IpAddress.field : IpAddress → Vector UInt8 16
  | .v4 bytes => (bytes ++ Vector.replicate 12 (0 : UInt8) : Vector UInt8 (4 + 12))
  | .v6 bytes => bytes

/-- What a detector saw. -/
structure SeenAlert where
  detectorType : UInt8
  proto : UInt8
  srcPort : UInt16
  dstPort : UInt16
  source : IpAddress
  destination : IpAddress
  count : UInt32
  aux : UInt32

def SeenAlert.reported (alert : SeenAlert) : ReportedAlert where
  detectorType := alert.detectorType
  proto := alert.proto
  srcPort := alert.srcPort
  dstPort := alert.dstPort
  srcIp := alert.source.field
  dstIp := alert.destination.field
  count := alert.count
  aux := alert.aux

end Idsm.EthProbe

namespace Idsm.Dashboard

open Idsm.Protocol (bigEndian)

/-- The value of a hexadecimal digit, `Buffer.from(text, "hex")`. -/
def unhex (c : Char) : Option Nat :=
  if '0' ≤ c ∧ c ≤ '9' then some (c.toNat - 48)
  else if 'a' ≤ c ∧ c ≤ 'f' then some (c.toNat - 87)
  else if 'A' ≤ c ∧ c ≤ 'F' then some (c.toNat - 55)
  else none

/-- Decoding stops at the first pair that is no byte. -/
def bufferFromHex : List Char → List UInt8
  | high :: low :: rest =>
      match unhex high, unhex low with
      | some upper, some lower => UInt8.ofNat (16 * upper + lower) :: bufferFromHex rest
      | _, _ => []
  | _ => []

def readUInt8 (raw : List UInt8) (offset : Nat) : Nat := bigEndian ((raw.drop offset).take 1)

def readUInt16BE (raw : List UInt8) (offset : Nat) : Nat := bigEndian ((raw.drop offset).take 2)

def readUInt32BE (raw : List UInt8) (offset : Nat) : Nat := bigEndian ((raw.drop offset).take 4)

/-- `detector_type` to its name. -/
def detectorNames : Nat → Option String
  | 1 => some "PORT_SCAN"
  | 2 => some "RATE_FLOOD"
  | 3 => some "FLAG_ANOMALY"
  | 4 => some "RULE_HIT"
  | 5 => some "DOIP"
  | 6 => some "SOME_IP"
  | 7 => some "REASSEMBLY"
  | 8 => some "CROSS_BORDER"
  | 9 => some "TLS"
  | 10 => some "HTTP"
  | 11 => some "DNS"
  | 12 => some "ARP_SPOOF"
  | 100 => some "SURICATA"
  | _ => none

def protoNames : Nat → Option String
  | 1 => some "ICMP"
  | 6 => some "TCP"
  | 17 => some "UDP"
  | 58 => some "ICMPv6"
  | _ => none

/-- `number.toString(16)` of a natural number. -/
def hexText (number : Nat) : String := String.ofList (Nat.toDigits 16 number)

def groups : List UInt8 → List Nat
  | high :: low :: rest => (high.toNat <<< 8 ||| low.toNat) :: groups rest
  | _ => []

/-- An address whose last twelve bytes are zero is shown as IPv4. -/
def ipStr (b : List UInt8) : String :=
  let isV4 := (b.drop 4).all (· == 0)
  if isV4 then ".".intercalate ((b.take 4).map fun byte => toString byte.toNat)
  else ":".intercalate ((groups b).map hexText)

def protoText (proto : Nat) : String := (protoNames proto).getD (toString proto)

structure EthContext where
  detector : String
  detectorType : Nat
  proto : String
  srcIp : String
  srcPort : Nat
  dstIp : String
  dstPort : Nat
  aux : Nat
  count : Nat
  summary : String
  deriving DecidableEq

/-- `aux=0x… xN`, the end of every summary. -/
def summaryEnd (aux count : Nat) : String :=
  " aux=0x" ++ (hexText aux).map Char.toUpper ++ " x" ++ toString count

def decodeEthContext (raw : List UInt8) : EthContext :=
  let detType := readUInt8 raw 0
  let proto := readUInt8 raw 1
  let sport := readUInt16BE raw 2
  let dport := readUInt16BE raw 4
  let srcIp := ipStr ((raw.drop 6).take 16)
  let dstIp := ipStr ((raw.drop 22).take 16)
  let count := readUInt32BE raw 38
  let aux := readUInt32BE raw 42
  let det := (detectorNames detType).getD ("TYPE_" ++ toString detType)
  let protoS := protoText proto
  { detector := det
    detectorType := detType
    proto := protoS
    srcIp
    srcPort := sport
    dstIp
    dstPort := dport
    aux
    count
    summary := det ++ " " ++ protoS ++ " " ++ srcIp ++ ":" ++ toString sport ++ " -> " ++ dstIp ++
      ":" ++ toString dport ++ summaryEnd aux count }

/-- What the dashboard makes of an alert's context bytes, sent as hexadecimal text. -/
def shown (a : EthProbe.ReportedAlert) : EthContext :=
  decodeEthContext (bufferFromHex (IdsRm.toHex (EthProbe.serializeContext a)).toList)

end Idsm.Dashboard
