import Idsm.EthProbe.PacketCoverageProperties

/-! Rules with contents of the raw bytes beside contents of an HTTP message: no place of the
pipeline sets both kinds of buffers. -/

set_option autoImplicit false

namespace Idsm.EthProbe

open Idsm.Foundation

/-- The buffers of an HTTP message. -/
def MatchBuffer.ofHttp : MatchBuffer → Bool
  | .httpMethod => true
  | .httpUri => true
  | .httpHeader => true
  | .raw => false
  | .dnsQuery => false

structure MixesBuffers (rule : Rule) : Prop where
  raw : ∃ c ∈ rule.contents, c.buffer = .raw
  sticky : ∃ c ∈ rule.contents, c.buffer.ofHttp = true

/-- Either the raw bytes or the parts of a message are missing. -/
inductive Separate (bufs : MatchBuffers) : Prop where
  | noRaw (missing : bufs.raw = none)
  | noMessage (missing : ∀ buffer : MatchBuffer, buffer.ofHttp = true → bufs.select buffer = none)

section Matching

variable {bufs : MatchBuffers} {contents : List ContentMatch} {rule : Rule} {probe : Probe}
  {pp : ParsedPacket}

/-- A content of a buffer that is not set does not match. -/
theorem contentsMatch_unset {c : ContentMatch} (member : c ∈ contents)
    (unset : bufs.select c.buffer = none) (prevEnd : MatchBuffer → Nat) :
    contentsMatch bufs contents prevEnd = none := by
  induction contents generalizing prevEnd with
  | nil => cases member
  | cons first rest ih =>
      rw [contentsMatch]
      rcases List.mem_cons.mp member with rfl | member
      · rw [unset]
      · cases bufs.select first.buffer with
        | none => rfl
        | some buf =>
            dsimp only
            cases contentMatches buf first (prevEnd first.buffer) with
            | none => rfl
            | some stop => exact ih member _

theorem not_mem_matched {c : ContentMatch} (member : c ∈ rule.contents)
    (unset : bufs.select c.buffer = none) : rule ∉ probe.rules.matched pp bufs := by
  intro matched
  have all := (List.mem_filter.mp matched).2
  rw [Rule.matches, contentsMatch_unset member unset, Option.isSome_none, Bool.and_false] at all
  cases all

/-- A loaded rule that does not mix the buffers. -/
structure Unmixed (probe : Probe) (rule : Rule) : Prop where
  loaded : rule ∈ probe.rules.rules
  unmixed : ¬ MixesBuffers rule

theorem unmixed_of_matched (separate : Separate bufs)
    (hit : rule ∈ probe.rules.matched pp bufs) : Unmixed probe rule := by
  refine ⟨(List.mem_filter.mp hit).1, fun mixes => ?_⟩
  cases separate with
  | noRaw missing =>
      obtain ⟨c, member, raw⟩ := mixes.raw
      refine not_mem_matched member ?_ hit
      rw [raw]
      exact missing
  | noMessage missing =>
      obtain ⟨c, member, sticky⟩ := mixes.sticky
      exact not_mem_matched member (missing c.buffer sticky) hit

theorem separate_of_bytes (raw dnsQuery : Option (List UInt8)) :
    Separate { MatchBuffers.empty with raw := raw, dnsQuery := dnsQuery } := by
  refine .noMessage fun buffer sticky => ?_
  cases buffer with
  | raw => cases sticky
  | dnsQuery => cases sticky
  | httpMethod => rfl
  | httpUri => rfl
  | httpHeader => rfl

theorem separate_of_message (msg : HttpMessage) : Separate msg.buffers := .noRaw rfl

/-- The rules behind a packet's alerts, be it the packet's own bytes, the stream's or a
message's. -/
theorem unmixed_of_packetHits {state : TcpState} {arrival : ParsedPacket × UInt64}
    (hit : rule ∈ probe.packetHits state arrival) : Unmixed probe rule := by
  unfold Probe.packetHits at hit
  rcases List.mem_append.mp hit with header | stream
  · exact unmixed_of_matched (separate_of_bytes _ none) (List.mem_filter.mp header).1
  · cases delivered : probe.delivery state arrival with
    | none =>
        rw [delivered] at stream
        cases stream
    | some found =>
        rw [delivered] at stream
        obtain ⟨occurrence, member, rfl⟩ := List.mem_map.mp stream
        rcases List.mem_append.mp member with window | message
        · obtain ⟨matched, onBytes, rfl⟩ := List.mem_map.mp window
          exact unmixed_of_matched (separate_of_bytes _ none) onBytes
        · obtain ⟨message, -, member⟩ := List.mem_flatMap.mp message
          obtain ⟨matched, onMessage, rfl⟩ := List.mem_map.mp member
          exact unmixed_of_matched (separate_of_message _) onMessage

end Matching

section Alerts

/-- The sid that an alert of a rule carries. -/
def PacketAlert.ruleSid : PacketAlert → Option UInt32
  | .probe alert => if alert.detectorType = .ruleHit then some alert.aux else none
  | .dns _ _ => none
  | .someip _ _ => none
  | .reassembly _ _ => none

/-- Rules that mix the buffers are not behind the alert. -/
def FromUnmixed (probe : Probe) (alert : PacketAlert) : Prop :=
  ∀ sid, alert.ruleSid = some sid → ∃ rule, Unmixed probe rule ∧ rule.sid = sid

variable {monitor : Monitor} {probe : Probe} {alert : PacketAlert} {pp : ParsedPacket}
  {rule : Rule} {nowMs : UInt64}

theorem fromUnmixed_of_other (other : alert.ruleSid = none) : FromUnmixed probe alert := by
  intro sid named
  rw [other] at named
  cases named

theorem fromUnmixed_ofRule (unmixed : Unmixed probe rule) :
    FromUnmixed probe (PacketAlert.ofRule pp rule) := by
  intro sid named
  exact ⟨rule, unmixed, Option.some.inj named⟩

theorem fromUnmixed_handleTcp {state : TcpState}
    (member : alert ∈ (probe.handleTcp state pp nowMs).2.map PacketAlert.probe) :
    FromUnmixed probe alert := by
  obtain ⟨raised, among, rfl⟩ := List.mem_map.mp member
  cases hit : raised.isRuleHit with
  | false =>
      refine fromUnmixed_of_other (if_neg fun named => ?_)
      rw [ProbeAlert.isRuleHit, named] at hit
      cases hit
  | true =>
      have hits := List.mem_filter.mpr ⟨among, hit⟩
      rw [@handleTcp_ruleHits probe state (pp, nowMs)] at hits
      obtain ⟨rule, found, rfl⟩ := List.mem_map.mp hits
      exact fromUnmixed_ofRule (unmixed_of_packetHits found)

theorem fromUnmixed_matchRulesPacket {headerOnly : Bool}
    (member : alert ∈ monitor.matchRulesPacket pp headerOnly) :
    FromUnmixed monitor.probe alert := by
  obtain ⟨rule, found, rfl⟩ := List.mem_map.mp member
  exact fromUnmixed_ofRule
    (unmixed_of_matched (separate_of_bytes _ none) (List.mem_filter.mp found).1)

theorem fromUnmixed_dnsAlerts {info : DnsInfo} (member : alert ∈ Monitor.dnsAlerts pp info) :
    FromUnmixed probe alert := by
  refine fromUnmixed_of_other ?_
  unfold Monitor.dnsAlerts at member
  rcases List.mem_append.mp member with error | qtype
  · split_ifs at error
    · rw [List.mem_singleton.mp error]
      rfl
    · rw [List.mem_singleton.mp error]
      rfl
    · cases error
  · split_ifs at qtype
    · rw [List.mem_singleton.mp qtype]
      rfl
    · cases qtype

theorem fromUnmixed_handleDns (member : alert ∈ monitor.handleDns pp) :
    FromUnmixed monitor.probe alert := by
  unfold Monitor.handleDns at member
  rcases List.mem_append.mp member with parser | rules
  · exact fromUnmixed_dnsAlerts parser
  · split at rules
    next =>
      obtain ⟨rule, found, rfl⟩ := List.mem_map.mp rules
      exact fromUnmixed_ofRule (unmixed_of_matched (separate_of_bytes _ _) found)
    next => cases rules

theorem fromUnmixed_handleSomeip {sessions : SdSessions}
    (member : alert ∈ (monitor.handleSomeip sessions pp).2) : FromUnmixed probe alert := by
  refine fromUnmixed_of_other ?_
  unfold Monitor.handleSomeip at member
  dsimp only at member
  split at member
  next =>
    rw [List.mem_singleton.mp member]
    rfl
  next =>
    split at member
    next =>
      obtain ⟨aux, -, rfl⟩ := List.mem_map.mp member
      rfl
    next => cases member

theorem fromUnmixed_doip
    (member : alert ∈ (inspectDoipMessage pp pp.payload).toList.map PacketAlert.probe) :
    FromUnmixed probe alert := by
  obtain ⟨raised, found, rfl⟩ := List.mem_map.mp member
  rw [Option.mem_toList, inspectDoipMessage, Option.map_eq_some_iff] at found
  obtain ⟨aux, -, rfl⟩ := found
  exact fromUnmixed_of_other rfl

theorem fromUnmixed_handleUdp {sessions : SdSessions}
    (member : alert ∈ (monitor.handleUdp sessions pp).2) : FromUnmixed monitor.probe alert := by
  unfold Monitor.handleUdp at member
  rcases List.mem_append.mp member with earlier | rules
  · rcases List.mem_append.mp earlier with doip | someip
    · split at doip
      next => exact fromUnmixed_doip doip
      next => cases doip
    · split at someip
      next => exact fromUnmixed_handleSomeip someip
      next => cases someip
  · split at rules
    next => exact fromUnmixed_handleDns rules
    next => exact fromUnmixed_matchRulesPacket rules

theorem fromUnmixed_handleL4 {state : MonitorState}
    (member : alert ∈ (monitor.handleL4 state pp nowMs).2) : FromUnmixed monitor.probe alert := by
  unfold Monitor.handleL4 at member
  split at member
  next => exact fromUnmixed_handleTcp member
  next =>
    split at member
    next => exact fromUnmixed_handleUdp member
    next =>
      split at member
      next => exact fromUnmixed_matchRulesPacket member
      next => cases member

theorem fromUnmixed_perform {calls : List FrameCall} {state : MonitorState}
    (member : alert ∈ (monitor.perform nowMs state calls).2) :
    FromUnmixed monitor.probe alert := by
  induction calls generalizing state with
  | nil => cases member
  | cons call later ih =>
      cases call with
      | reassemblyAlert pp aux =>
          rcases List.mem_cons.mp member with rfl | member
          · exact fromUnmixed_of_other rfl
          · exact ih member
      | handleL4 pp =>
          rcases List.mem_append.mp member with here | member
          · exact fromUnmixed_handleL4 here
          · exact ih member

/-- In every run, whatever the frames carry and however they cut it, the alerts of rules come
from rules that do not mix the raw bytes with the parts of an HTTP message. -/
theorem mixed_rules_never_alert {start last : MonitorState}
    {transitions : List (Transition MonitorState MonitorEvent)}
    (run : Execution monitor.step start transitions last) :
    ∀ transition ∈ transitions, ∀ alert ∈ monitor.raised transition.before transition.event,
      FromUnmixed monitor.probe alert := by
  induction run with
  | stop state => exact List.forall_mem_nil _
  | @next state middle ended event steps here later ih =>
      refine List.forall_mem_cons.mpr ⟨fun alert member => ?_, ih⟩
      cases event with
      | frame data nowMs => exact fromUnmixed_perform member
      | tick nowMs => cases member

end Alerts

section Samples

/-- A rule for the raw bytes "Host" and the URI "/". -/
def mixedRule : Rule :=
  { ruleSample .tcp with
    contents :=
      [⟨⟨[72, 111, 115, 116], by simp⟩, .raw, false, none, none, none, none⟩,
        ⟨⟨[47], by simp⟩, .httpUri, false, none, none, none, none⟩] }

def mixedMonitor : Monitor := monitorSample [mixedRule] (by decide)

/-- "GET / HTTP/1.1" and a line "Host: a". -/
def hostRequest : List UInt8 :=
  requestSample.take 16 ++ [72, 111, 115, 116, 58, 32, 97, 13, 10, 13, 10]

/-- A segment from port 40000 to port 80. -/
def requestFrame (data : List UInt8) : List UInt8 :=
  ethernet [8, 0] ([0x45, 0, 0, 40 + UInt8.ofNat data.length, 0, 7, 0, 0, 64, 6, 0, 0,
    10, 0, 0, 1, 10, 0, 0, 2, 156, 64, 0, 80, 0, 0, 0, 1, 0, 0, 0, 1, 0x50, 0x18,
    0, 0, 0, 0, 0, 0] ++ data)

def mixedRequest : ParsedPacket :=
  (parsePacket (requestFrame hostRequest)).get (by decide)

def mixedTrace : List (Transition MonitorState MonitorEvent) × MonitorState :=
  (execute mixedMonitor.step .initial [.frame (requestFrame hostRequest) 0]).get
    (by decide)

theorem mixed_rules_never_alert_sample :
    execute mixedMonitor.step .initial [.frame (requestFrame hostRequest) 0] = some mixedTrace ∧
    ∀ transition ∈ mixedTrace.1,
      ∀ alert ∈ mixedMonitor.raised transition.before transition.event,
        FromUnmixed mixedMonitor.probe alert := by
  have ran : execute mixedMonitor.step .initial [.frame (requestFrame hostRequest) 0] =
      some mixedTrace := (Option.some_get _).symm
  exact ⟨ran, mixed_rules_never_alert (execution_of_execute ran)⟩

/-- A packet with a request that has all that a mixing rule asks for. -/
structure MixedRequest (monitor : Monitor) (pp : ParsedPacket) (rule : Rule) : Prop where
  loaded : rule ∈ monitor.probe.rules.rules
  mixes : MixesBuffers rule
  plain : ∀ c ∈ rule.contents,
    c.offset = none ∧ c.depth = none ∧ c.distance = none ∧ c.within = none
  header : rule.matchesHeader pp = true
  tcp : pp.isTcp = true
  port : pp.dstPort = monitor.probe.httpPort
  accepted : (parseHttp pp.payload).error = .ok ∧ (parseHttp pp.payload).isRequest = true
  contents : (contentsMatch { (parseHttp pp.payload).buffers with
    raw := (parseHttp pp.payload).headerBlock } rule.contents fun _ => 0).isSome = true

theorem mixed_rule_misses_request :
    ¬ ∀ (monitor : Monitor) (frame : List UInt8) (pp : ParsedPacket) (rule : Rule),
        Delivered monitor frame pp → MixedRequest monitor pp rule →
          ∃ alert ∈ (monitor.feed .initial frame 0).2, alert.ruleSid = some rule.sid := by
  intro fires
  have alerted := fires mixedMonitor (requestFrame hostRequest) mixedRequest mixedRule
    ⟨(Option.some_get _).symm, by decide, by decide, rfl⟩
    { loaded := List.mem_cons_self
      mixes := ⟨by decide, by decide⟩
      plain := by decide
      header := by decide
      tcp := by decide
      port := by decide
      accepted := by decide
      contents := by decide }
  exact absurd alerted (by decide)

end Samples

end Idsm.EthProbe
