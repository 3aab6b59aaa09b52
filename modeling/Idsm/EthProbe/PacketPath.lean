import Idsm.EthProbe.IpDefrag
import Idsm.EthProbe.Pipeline
import Idsm.EthProbe.UdpProtocols

/-! From a frame to its alerts, `pipeline.cpp`: the transport layer behind the reassembly, and
the clock. -/

set_option autoImplicit false

namespace Idsm.EthProbe

/-- The alerts of the TCP path, and those of the other detectors on the way. -/
inductive PacketAlert where
  | probe (alert : ProbeAlert)
  | dns (pp : ParsedPacket) (aux : UInt32)
  | someip (pp : ParsedPacket) (aux : UInt32)
  | reassembly (pp : ParsedPacket) (aux : UInt32)
  deriving DecidableEq, Repr

def PacketAlert.ofRule (pp : ParsedPacket) (rule : Rule) : PacketAlert :=
  .probe (makeAlert .ruleHit pp rule.sid)

def ParsedPacket.usesPort (pp : ParsedPacket) (port : UInt16) : Bool :=
  pp.srcPort == port || pp.dstPort == port

/-- The configuration of the whole pipeline. `trusted` is the verdict of the configured sources
on an address and its version. -/
structure Monitor where
  probe : Probe
  defrag : DefragConfig
  trusted : List UInt8 → Bool → Bool
  someipPort : UInt16
  services : ServiceWhitelist

structure MonitorState where
  defrag : IpDefrag
  tcp : TcpState
  sessions : SdSessions

namespace Monitor

variable (monitor : Monitor)

/-- The rules on the packet's own payload, when `headerOnly` only those without contents. -/
def matchRulesPacket (pp : ParsedPacket) (headerOnly : Bool) : List PacketAlert :=
  ((monitor.probe.rules.matched pp { MatchBuffers.empty with raw := some pp.payload }).filter
    fun rule => !headerOnly || rule.headerOnly).map (PacketAlert.ofRule pp)

def dnsBuffers (pp : ParsedPacket) (info : DnsInfo) : MatchBuffers :=
  { MatchBuffers.empty with raw := some pp.payload, dnsQuery := some info.qname }

/-- The alerts of the parser. -/
def dnsAlerts (pp : ParsedPacket) (info : DnsInfo) : List PacketAlert :=
  (if info.error = .qname then [.dns pp dnsAlertQnameIllegal]
    else if info.error ≠ .ok ∧ info.error ≠ .truncated then [.dns pp info.error.code]
    else []) ++
    if info.valid && dnsQtypeSuspicious info.qtype then
      [.dns pp (dnsAlertSuspiciousQtype ||| info.qtype.toUInt32)]
    else []

/-- It does its own rule match. -/
def handleDns (pp : ParsedPacket) : List PacketAlert :=
  let info := parseDns pp.payload
  dnsAlerts pp info ++
    if info.valid ∧ info.qname ≠ [] then
      (monitor.probe.rules.matched pp (dnsBuffers pp info)).map (PacketAlert.ofRule pp)
    else []

def handleSomeip (sessions : SdSessions) (pp : ParsedPacket) : SdSessions × List PacketAlert :=
  let info := parseSomeip pp.payload
  if info.valid = false then (sessions, [.someip pp info.error.code])
  else if info.isSd then
    let (sessions, alerts) := inspectSd monitor.services sessions info pp.srcIp
    (sessions, alerts.map (.someip pp))
  else (sessions, [])

def handleUdp (sessions : SdSessions) (pp : ParsedPacket) : SdSessions × List PacketAlert :=
  let doip := if pp.usesPort doipPort then (inspectDoipMessage pp pp.payload).toList else []
  let (sessions, someip) :=
    if pp.usesPort monitor.someipPort then monitor.handleSomeip sessions pp else (sessions, [])
  let rules :=
    if pp.usesPort dnsPort then monitor.handleDns pp else monitor.matchRulesPacket pp false
  (sessions, doip.map .probe ++ someip ++ rules)

def handleL4 (state : MonitorState) (pp : ParsedPacket) (nowMs : UInt64) :
    MonitorState × List PacketAlert :=
  if pp.isTcp then
    let (tcp, alerts) := monitor.probe.handleTcp state.tcp pp nowMs
    ({ state with tcp }, alerts.map .probe)
  else if pp.isUdp then
    let (sessions, alerts) := monitor.handleUdp state.sessions pp
    ({ state with sessions }, alerts)
  else if pp.l4Proto = ipProtoIcmp ∨ pp.l4Proto = ipProtoIcmpv6 then
    (state, monitor.matchRulesPacket pp false)
  else (state, [])

/-- What the frame path asks for, one call after the other. -/
def perform (nowMs : UInt64) : MonitorState → List FrameCall → MonitorState × List PacketAlert
  | state, [] => (state, [])
  | state, .reassemblyAlert pp aux :: later =>
      let (state, alerts) := perform nowMs state later
      (state, .reassembly pp aux :: alerts)
  | state, .handleL4 pp :: later =>
      let (state, here) := monitor.handleL4 state pp nowMs
      let (state, alerts) := perform nowMs state later
      (state, here ++ alerts)

def feed (state : MonitorState) (data : List UInt8) (nowMs : UInt64) :
    MonitorState × List PacketAlert :=
  let (defrag, calls) := feedFrame monitor.defrag monitor.trusted state.defrag data nowMs
  monitor.perform nowMs { state with defrag } calls

/-- The flows that expire keep their application state. -/
def tick (state : MonitorState) (nowMs : UInt64) : MonitorState :=
  { state with
    defrag := (state.defrag.expire monitor.defrag.timeoutMs nowMs).1
    tcp := { state.tcp with tcp := (state.tcp.tcp.expire monitor.probe.tcp.idleTimeoutMs nowMs).1 } }

end Monitor

/-- The capture loop hands over the frames and the time. -/
inductive MonitorEvent where
  | frame (data : List UInt8) (nowMs : UInt64)
  | tick (nowMs : UInt64)
  deriving DecidableEq, Repr

def Monitor.step (monitor : Monitor) (state : MonitorState) : MonitorEvent → Option MonitorState
  | .frame data nowMs => some (monitor.feed state data nowMs).1
  | .tick nowMs => some (monitor.tick state nowMs)

def Monitor.raised (monitor : Monitor) (state : MonitorState) : MonitorEvent → List PacketAlert
  | .frame data nowMs => (monitor.feed state data nowMs).2
  | .tick _ => []

section Keys

/-- The keys of `flows_` after a TCP packet: `operator[]` makes an entry, the close erases it. -/
def Probe.flowKeys (probe : Probe) (state : TcpState) (pp : ParsedPacket) (nowMs : UInt64)
    (keys : List FlowKey) : List FlowKey :=
  let res := (addSegment probe.tcp state.tcp pp nowMs).2
  let keys := if res.hasData ∧ res.data ≠ [] then keys.insert res.flow else keys
  if res.closed then keys.filter fun key => key ≠ res.flow else keys

namespace Monitor

variable (monitor : Monitor)

def performKeys (nowMs : UInt64) : MonitorState → List FlowKey → List FrameCall → List FlowKey
  | _, keys, [] => keys
  | state, keys, .reassemblyAlert _ _ :: later => performKeys nowMs state keys later
  | state, keys, .handleL4 pp :: later =>
      performKeys nowMs (monitor.handleL4 state pp nowMs).1
        (if pp.isTcp then monitor.probe.flowKeys state.tcp pp nowMs keys else keys) later

def feedKeys (state : MonitorState) (keys : List FlowKey) (data : List UInt8) (nowMs : UInt64) :
    List FlowKey :=
  let (defrag, calls) := feedFrame monitor.defrag monitor.trusted state.defrag data nowMs
  monitor.performKeys nowMs { state with defrag } keys calls

end Monitor

/-- The state of the pipeline with the keys of `flows_`. -/
structure KeyedState where
  state : MonitorState
  keys : List FlowKey

/-- `tick` leaves `flows_` alone. -/
def Monitor.keyedStep (monitor : Monitor) (keyed : KeyedState) : MonitorEvent → Option KeyedState
  | .frame data nowMs =>
      some ⟨(monitor.feed keyed.state data nowMs).1,
        monitor.feedKeys keyed.state keyed.keys data nowMs⟩
  | .tick nowMs => some ⟨monitor.tick keyed.state nowMs, keyed.keys⟩

end Keys

end Idsm.EthProbe
