import Idsm.EthProbe.AppProtocols
import Idsm.EthProbe.Rules
import Idsm.EthProbe.StreamTcp

/-! The TCP path of the detection pipeline, `pipeline.cpp`: what one packet and the bytes it
delivers raise. -/

set_option autoImplicit false

namespace Idsm.EthProbe

inductive DetectorType where
  | ruleHit
  | doip
  | tls
  | http
  deriving DecidableEq, Repr

structure ProbeAlert where
  detectorType : DetectorType
  proto : UInt8
  srcPort : UInt16
  dstPort : UInt16
  srcIp : List UInt8
  dstIp : List UInt8
  aux : UInt32
  deriving DecidableEq, Repr

def makeAlert (detectorType : DetectorType) (pp : ParsedPacket) (aux : UInt32) : ProbeAlert where
  detectorType
  proto := pp.l4Proto
  srcPort := pp.srcPort
  dstPort := pp.dstPort
  srcIp := pp.srcIp
  dstIp := pp.dstIp
  aux

/-- The most that an application parser keeps; no caller changes the default. -/
def streamAccCap : Nat := 64 * 1024

/-- What the probe was started with. `isHome` is the verdict of the loaded networks on an
address and its version. -/
structure Probe where
  rules : RuleEngine
  isHome : List UInt8 → Bool → Bool
  tlsPort : UInt16
  httpPort : UInt16
  httpAltPort : UInt16
  tcp : TcpConfig

/-- One direction of a flow. -/
structure DirState where
  ruleTail : List UInt8
  acc : List UInt8
  httpChecked : Bool
  httpBad : Bool
  tlsDone : Bool
  deriving DecidableEq, Repr

def DirState.fresh : DirState := ⟨[], [], false, false, false⟩

def DirState.capAcc (ds : DirState) : DirState :=
  if streamAccCap < ds.acc.length then
    { ds with acc := ds.acc.drop (ds.acc.length - streamAccCap) }
  else ds

section Doip

def doipMaxPayload : Nat := 16 * 1024 * 1024

/-- The messages that the loop frames, whether it met an implausible length, and the rest. -/
structure DoipFramed where
  messages : List (List UInt8)
  implausible : Bool
  rest : List UInt8
  deriving DecidableEq, Repr

def frameDoip : (fuel : Nat) → List UInt8 → DoipFramed
  | 0, acc => ⟨[], false, acc⟩
  | fuel + 1, acc =>
      if acc.length < 8 then ⟨[], false, acc⟩
      else
        let payLen := (rd32 acc 4).toNat
        if doipMaxPayload < payLen then ⟨[], true, []⟩
        else if acc.length < 8 + payLen then ⟨[], false, acc⟩
        else
          let framed := frameDoip fuel (acc.drop (8 + payLen))
          { framed with messages := acc.take (8 + payLen) :: framed.messages }

def inspectDoipMessage (pp : ParsedPacket) (message : List UInt8) : Option ProbeAlert :=
  (inspectDoip (parseDoip message)).map (makeAlert .doip pp)

def feedDoipStream (pp : ParsedPacket) (ds : DirState) (data : List UInt8) :
    DirState × List ProbeAlert :=
  let acc := ds.acc ++ data
  let framed := frameDoip acc.length acc
  ({ ds with acc := framed.rest },
    framed.messages.filterMap (inspectDoipMessage pp) ++
      if framed.implausible then [makeAlert .doip pp DoipError.length.code] else [])

end Doip

section Http

/-- The sticky buffers of a message; the raw bytes are no buffer here. -/
def HttpMessage.buffers (msg : HttpMessage) : MatchBuffers :=
  { MatchBuffers.empty with
    httpHeader := msg.headerBlock
    httpMethod := if msg.isRequest then some msg.method else none
    httpUri := if msg.isRequest then some msg.uri else none }

/-- The messages that the loop parses, the alert that ended it, and the rest. -/
structure HttpParsed where
  messages : List HttpMessage
  failure : Option UInt32
  rest : List UInt8
  deriving DecidableEq, Repr

def HttpError.alert : HttpError → UInt32
  | .uriTooLong => httpAlertUriTooLong
  | _ => httpAlertMalformed

/-- The loop over pipelined messages; an error drops what was accumulated. -/
def parseMessages : (fuel : Nat) → List UInt8 → HttpParsed
  | 0, acc => ⟨[], none, acc⟩
  | fuel + 1, acc =>
      if acc = [] then ⟨[], none, []⟩
      else if httpMaxHeader < acc.length then ⟨[], some httpAlertMalformed, []⟩
      else
        let msg := parseHttp acc
        if msg.error = .incomplete then ⟨[], none, acc⟩
        else if msg.error ≠ .ok then ⟨[], some msg.error.alert, []⟩
        else
          let parsed := parseMessages fuel (acc.drop msg.consumed)
          { parsed with messages := msg :: parsed.messages }

end Http

namespace Probe

variable (probe : Probe)

/-- Both ends are inside the vehicle. -/
def internal (pp : ParsedPacket) : Bool :=
  probe.isHome pp.srcIp pp.isIpv6 && probe.isHome pp.dstIp pp.isIpv6

/-- The alerts of a stream that has shown its first record. -/
def tlsAlerts (pp : ParsedPacket) (ch : TlsClientHello) : List ProbeAlert :=
  if ch.valid = false then [makeAlert .tls pp tlsAlertMalformed]
  else
    (if probe.internal pp then [makeAlert .tls pp tlsAlertSeenOnVehicleNet] else []) ++
      if ch.clientVersion < 0x0303 then [makeAlert .tls pp tlsAlertVersionLt12] else []

def feedTlsStream (pp : ParsedPacket) (ds : DirState) (data : List UInt8) :
    DirState × List ProbeAlert :=
  if ds.tlsDone then (ds, [])
  else
    let ds := { ds with acc := ds.acc ++ data }
    if looksLikeTls ds.acc = false then ({ ds with tlsDone := true }, [])
    else
      let ch := parseTlsClientHello ds.acc
      if ch.error = .truncated then (ds, [])
      else ({ ds with tlsDone := true }, probe.tlsAlerts pp ch)

/-- The alerts of the rules that match. -/
def ruleAlerts (pp : ParsedPacket) (bufs : MatchBuffers) : List ProbeAlert :=
  (probe.rules.matched pp bufs).map fun rule => makeAlert .ruleHit pp rule.sid

/-- The alerts of parsed messages, and of what ended the loop. -/
def httpAlerts (pp : ParsedPacket) (parsed : HttpParsed) : List ProbeAlert :=
  parsed.messages.flatMap (fun msg => probe.ruleAlerts pp msg.buffers) ++
    (parsed.failure.map (makeAlert .http pp)).toList

def feedHttpStream (pp : ParsedPacket) (ds : DirState) (data : List UInt8) :
    DirState × List ProbeAlert :=
  if ds.httpBad then (ds, [])
  else
    let ds := { ds with acc := ds.acc ++ data }
    if ds.httpChecked = false ∧ looksLikeHttp ds.acc = false then
      ({ ds with httpChecked := true, httpBad := true }, [makeAlert .http pp httpAlertMalformed])
    else
      let parsed := parseMessages ds.acc.length ds.acc
      ({ ds with httpChecked := true, acc := parsed.rest }, probe.httpAlerts pp parsed)

/-- How many bytes of the stream are kept for patterns that reach into the next chunk. -/
def keep : Nat := probe.rules.maxPatternLen - 1

/-- The rules that match on the retained tail and the new bytes. -/
def streamHits (pp : ParsedPacket) (ds : DirState) (data : List UInt8) : List Rule :=
  probe.rules.matched pp { MatchBuffers.empty with raw := some (ds.ruleTail ++ data) }

def keepTail (window : List UInt8) : List UInt8 :=
  if probe.keep < window.length then window.drop (window.length - probe.keep) else window

/-- The application parser of a direction, by the port of its receiver. -/
def feedApp (pp : ParsedPacket) (port : UInt16) (ds : DirState) (data : List UInt8) :
    DirState × List ProbeAlert :=
  if port = doipPort then feedDoipStream pp ds data
  else if port = probe.tlsPort then probe.feedTlsStream pp ds data
  else if port = probe.httpPort ∨ port = probe.httpAltPort then probe.feedHttpStream pp ds data
  else (ds, [])

/-- Delivered bytes of one direction, first the rules and then the application. -/
def handleStreamData (pp : ParsedPacket) (port : UInt16) (ds : DirState) (data : List UInt8) :
    DirState × List ProbeAlert :=
  let hits := (probe.streamHits pp ds data).map fun rule => makeAlert .ruleHit pp rule.sid
  let ds := { ds with ruleTail := probe.keepTail (ds.ruleTail ++ data) }
  let (ds, alerts) := probe.feedApp pp port ds data
  (ds.capAcc, hits ++ alerts)

/-- The header-only rules that a TCP packet meets before its payload is looked at. -/
def headerHits (pp : ParsedPacket) : List Rule :=
  (probe.rules.matched pp { MatchBuffers.empty with raw := some pp.payload }).filter
    Rule.headerOnly

end Probe

/-- The reassembly and the directions of its flows; one that is not there is fresh. -/
structure TcpState where
  tcp : TcpReassembly
  flows : FlowKey → Bool → DirState

def TcpState.setDir (state : TcpState) (key : FlowKey) (reverse : Bool) (ds : DirState) :
    TcpState :=
  { state with
    flows := fun other side => if other = key ∧ side = reverse then ds else state.flows other side }

def TcpState.eraseFlow (state : TcpState) (key : FlowKey) : TcpState :=
  { state with flows := fun other side => if other = key then .fresh else state.flows other side }

/-- The port of the receiver of a direction. -/
def FlowKey.port (key : FlowKey) (reverse : Bool) : UInt16 :=
  if reverse then key.aPort else key.bPort

/-- One TCP packet, without the detectors that see packets only. -/
def Probe.handleTcp (probe : Probe) (state : TcpState) (pp : ParsedPacket) (nowMs : UInt64) :
    TcpState × List ProbeAlert :=
  let packetAlerts := (probe.headerHits pp).map fun rule => makeAlert .ruleHit pp rule.sid
  let (tcp, res) := addSegment probe.tcp state.tcp pp nowMs
  let state := { state with tcp }
  let (state, streamAlerts) :=
    if res.hasData ∧ res.data ≠ [] then
      let (ds, alerts) := probe.handleStreamData pp (res.flow.port res.reverse)
        (state.flows res.flow res.reverse) res.data
      (state.setDir res.flow res.reverse ds, alerts)
    else (state, [])
  (if res.closed then state.eraseFlow res.flow else state, packetAlerts ++ streamAlerts)

end Idsm.EthProbe
