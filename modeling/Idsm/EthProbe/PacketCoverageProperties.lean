import Idsm.EthProbe.FragmentTransparencyProperties
import Idsm.EthProbe.PacketPath
import Idsm.EthProbe.RuleDuplicatesProperties

/-! Which packets meet the rules that ask for them. -/

set_option autoImplicit false

namespace Idsm.EthProbe

section Protocols

variable {p frame : List UInt8} {proto : UInt8} {out pp : ParsedPacket}

/-- The transport layer that was parsed is the one that the header names. -/
structure Tagged (pp : ParsedPacket) : Prop where
  tcp : pp.isTcp = true → pp.l4Proto = ipProtoTcp
  udp : pp.isUdp = true → pp.l4Proto = ipProtoUdp

theorem tagged_of_blank (noTcp : pp.isTcp = false) (noUdp : pp.isUdp = false) : Tagged pp where
  tcp set := by
    rw [noTcp] at set
    cases set
  udp set := by
    rw [noUdp] at set
    cases set

theorem tagged_parseL4 (noTcp : out.isTcp = false) (noUdp : out.isUdp = false)
    (named : out.l4Proto = proto) : Tagged (parseL4 p proto out) := by
  have header : (parseL4 p proto out).l4Proto = proto :=
    (congrArg L3View.l4Proto parseL4_l3View).trans named
  constructor
  · intro set
    rw [header]
    by_contra other
    have unset : (parseL4 p proto out).isTcp = false := by
      unfold parseL4 parseUdp parseIcmp
      dsimp only
      rw [if_neg other]
      split_ifs <;> exact noTcp
    rw [unset] at set
    cases set
  · intro set
    rw [header]
    by_contra other
    have unset : (parseL4 p proto out).isUdp = false := by
      unfold parseL4 parseTcp parseIcmp
      dsimp only
      rw [if_neg other]
      split_ifs <;> exact noUdp
    rw [unset] at set
    cases set

theorem Unparsed.noL4 (unparsed : Unparsed out) : out.isTcp = false ∧ out.isUdp = false :=
  ⟨congrArg L4View.isTcp unparsed.l4, congrArg L4View.isUdp unparsed.l4⟩

theorem tagged_parseIpv4 (unparsed : Unparsed out) : Tagged (parseIpv4 p out) := by
  obtain ⟨noTcp, noUdp⟩ := unparsed.noL4
  by_cases header : Ipv4Header p
  · rw [parseIpv4_of_header header]
    split
    next => exact tagged_of_blank noTcp noUdp
    next => exact tagged_parseL4 noTcp noUdp rfl
  · rw [parseIpv4_of_noHeader header]
    exact tagged_of_blank noTcp noUdp

theorem tagged_parseIpv6 (unparsed : Unparsed out) : Tagged (parseIpv6 p out) := by
  obtain ⟨noTcp, noUdp⟩ := unparsed.noL4
  by_cases header : Ipv6Header p
  · cases walk : walkExtensions p maxHops (byteAt p 6) 40 with
    | none =>
        unfold parseIpv6
        rw [if_neg (Nat.not_lt.mpr header.long), if_neg (not_not.mpr header.version)]
        dsimp only
        rw [walk]
        exact tagged_of_blank noTcp noUdp
    | some walked =>
        rw [parseIpv6_of_header header walk]
        cases walked.fragment with
        | none => exact tagged_parseL4 noTcp noUdp rfl
        | some fragment =>
            dsimp only
            split
            next => exact tagged_parseL4 noTcp noUdp rfl
            next => exact tagged_of_blank noTcp noUdp
  · unfold parseIpv6
    split
    next => exact tagged_of_blank noTcp noUdp
    next long =>
      split
      next => exact tagged_of_blank noTcp noUdp
      next version => exact absurd ⟨Nat.not_lt.mp long, not_not.mp version⟩ header

theorem tagged_parsePacket (accepted : parsePacket frame = some pp)
    (ip : pp.isIpv4 = true ∨ pp.isIpv6 = true) : Tagged pp := by
  obtain ⟨p, out, unparsed, ⟨-, rfl⟩ | ⟨-, rfl⟩⟩ := parsePacket_cases accepted ip
  · exact tagged_parseIpv4 unparsed
  · exact tagged_parseIpv6 unparsed

end Protocols

section Coverage

variable {monitor : Monitor} {state : MonitorState} {frame : List UInt8} {pp : ParsedPacket}
  {nowMs : UInt64} {rule : Rule}

/-- A rule that the packet has to raise an alert for. -/
structure Asked (monitor : Monitor) (pp : ParsedPacket) (rule : Rule) : Prop where
  loaded : rule ∈ monitor.probe.rules.rules
  header : rule.matchesHeader pp = true
  payload : rule.headerOnly = true ∨
    (pp.isUdp = true ∨ pp.l4Proto = ipProtoIcmp ∨ pp.l4Proto = ipProtoIcmpv6) ∧
      (∀ c ∈ rule.contents, c.buffer = .raw) ∧
      (contentsMatch { MatchBuffers.empty with raw := some pp.payload } rule.contents
        fun _ => 0).isSome = true

/-- The packet takes a way on which rules are matched: a DNS port needs a question with a
name. -/
def Inspected (pp : ParsedPacket) : Prop :=
  if pp.isTcp then True
  else if pp.isUdp then pp.usesPort dnsPort = true →
    (parseDns pp.payload).valid = true ∧ (parseDns pp.payload).qname ≠ []
  else pp.l4Proto = ipProtoIcmp ∨ pp.l4Proto = ipProtoIcmpv6

/-- Contents of the raw bytes do not look at the other buffers. -/
theorem contentsMatch_raw {bufs others : MatchBuffers} (same : bufs.raw = others.raw)
    {contents : List ContentMatch} (raw : ∀ c ∈ contents, c.buffer = .raw)
    (prevEnd : MatchBuffer → Nat) :
    contentsMatch bufs contents prevEnd = contentsMatch others contents prevEnd := by
  induction contents generalizing prevEnd with
  | nil => rfl
  | cons c rest ih =>
      have here := raw c List.mem_cons_self
      rw [contentsMatch, contentsMatch, here]
      simp only [MatchBuffers.select, same]
      cases others.raw with
      | none => rfl
      | some buf =>
          dsimp only
          cases contentMatches buf c (prevEnd .raw) with
          | none => rfl
          | some stop => exact ih (fun c member => raw c (List.mem_cons_of_mem _ member)) _

theorem contents_of_headerOnly (only : rule.headerOnly = true) : rule.contents = [] := by
  rw [Rule.headerOnly, Bool.and_eq_true] at only
  exact List.isEmpty_iff.mp only.1

/-- A rule that is asked for matches any buffers with the packet's payload. -/
theorem Asked.matched (asked : Asked monitor pp rule) {bufs : MatchBuffers}
    (payload : bufs.raw = some pp.payload) : rule ∈ monitor.probe.rules.matched pp bufs := by
  refine List.mem_filter.mpr ⟨asked.loaded, ?_⟩
  rw [Rule.matches, asked.header, Bool.true_and]
  rcases asked.payload with only | ⟨-, raw, matched⟩
  · rw [contents_of_headerOnly only]
    rfl
  · rw [@contentsMatch_raw bufs { MatchBuffers.empty with raw := some pp.payload } payload _ raw]
    exact matched

/-- TCP packets are asked for by header-only rules alone. -/
theorem Asked.headerOnly_of_tcp (asked : Asked monitor pp rule) (tagged : Tagged pp)
    (tcp : pp.isTcp = true) : rule.headerOnly = true := by
  rcases asked.payload with only | ⟨other, -⟩
  · exact only
  · have named := tagged.tcp tcp
    rcases other with udp | icmp | icmp
    · rw [tagged.udp udp] at named
      cases named
    · rw [icmp] at named
      cases named
    · rw [icmp] at named
      cases named

theorem mem_matchRulesPacket {headerOnly : Bool} (asked : Asked monitor pp rule)
    (only : headerOnly = true → rule.headerOnly = true) :
    PacketAlert.ofRule pp rule ∈ monitor.matchRulesPacket pp headerOnly := by
  refine List.mem_map_of_mem (List.mem_filter.mpr ⟨asked.matched rfl, ?_⟩)
  cases headerOnly with
  | false => rfl
  | true => exact only rfl

theorem ofRule_mem_handleTcp (asked : Asked monitor pp rule) (tagged : Tagged pp)
    (tcp : pp.isTcp = true) (state : TcpState) :
    PacketAlert.ofRule pp rule ∈
      (monitor.probe.handleTcp state pp nowMs).2.map PacketAlert.probe := by
  have hit : rule ∈ monitor.probe.headerHits pp :=
    List.mem_filter.mpr ⟨asked.matched rfl, asked.headerOnly_of_tcp tagged tcp⟩
  refine List.mem_map_of_mem (List.mem_append_left _ ?_)
  exact List.mem_map_of_mem hit

/-- A packet that is inspected raises an alert for every rule that asks for it. -/
theorem ofRule_mem_handleL4 (asked : Asked monitor pp rule) (tagged : Tagged pp)
    (inspected : Inspected pp) :
    PacketAlert.ofRule pp rule ∈ (monitor.handleL4 state pp nowMs).2 := by
  unfold Inspected at inspected
  unfold Monitor.handleL4
  cases tcp : pp.isTcp with
  | true => exact ofRule_mem_handleTcp asked tagged tcp _
  | false =>
      rw [tcp, if_neg Bool.false_ne_true] at inspected
      rw [if_neg Bool.false_ne_true]
      cases udp : pp.isUdp with
      | true =>
          rw [udp, if_pos rfl] at inspected
          refine List.mem_append_right _ ?_
          split
          next named =>
            obtain ⟨valid, qname⟩ := inspected named
            refine List.mem_append_right _ ?_
            rw [if_pos ⟨valid, qname⟩]
            exact List.mem_map_of_mem (asked.matched rfl)
          next => exact mem_matchRulesPacket asked nofun
      | false =>
          rw [udp, if_neg Bool.false_ne_true] at inspected
          rw [if_neg Bool.false_ne_true, if_pos inspected]
          exact mem_matchRulesPacket asked nofun

theorem ofRule_not_mem_doip :
    PacketAlert.ofRule pp rule ∉
      ((inspectDoipMessage pp pp.payload).toList.map PacketAlert.probe) := by
  intro member
  obtain ⟨alert, found, same⟩ := List.mem_map.mp member
  rw [Option.mem_toList, inspectDoipMessage, Option.map_eq_some_iff] at found
  obtain ⟨aux, -, rfl⟩ := found
  cases same

theorem ofRule_not_mem_handleSomeip {sessions : SdSessions} :
    PacketAlert.ofRule pp rule ∉ (monitor.handleSomeip sessions pp).2 := by
  unfold Monitor.handleSomeip
  dsimp only
  split
  next => exact fun member => nomatch List.mem_singleton.mp member
  next =>
    split
    next =>
      intro member
      obtain ⟨aux, -, same⟩ := List.mem_map.mp member
      cases same
    next => exact List.not_mem_nil

theorem ofRule_not_mem_dnsAlerts {info : DnsInfo} :
    PacketAlert.ofRule pp rule ∉ Monitor.dnsAlerts pp info := by
  unfold Monitor.dnsAlerts
  rw [List.mem_append, not_or]
  constructor
  · split_ifs
    · exact fun member => nomatch List.mem_singleton.mp member
    · exact fun member => nomatch List.mem_singleton.mp member
    · exact List.not_mem_nil
  · split_ifs
    · exact fun member => nomatch List.mem_singleton.mp member
    · exact List.not_mem_nil

/-- A packet that is not inspected raises no rule's alert. -/
theorem ofRule_not_mem_handleL4 (missed : ¬ Inspected pp) :
    PacketAlert.ofRule pp rule ∉ (monitor.handleL4 state pp nowMs).2 := by
  unfold Inspected at missed
  unfold Monitor.handleL4
  cases tcp : pp.isTcp with
  | true =>
      rw [tcp] at missed
      exact absurd trivial missed
  | false =>
      rw [tcp, if_neg Bool.false_ne_true] at missed
      rw [if_neg Bool.false_ne_true]
      cases udp : pp.isUdp with
      | true =>
          rw [udp, if_pos rfl] at missed
          obtain ⟨named, bad⟩ := Classical.not_imp.mp missed
          dsimp only [Monitor.handleUdp]
          rw [if_pos rfl, if_pos named, Monitor.handleDns, if_neg bad, List.append_nil,
            List.mem_append, List.mem_append, not_or, not_or]
          refine ⟨⟨?_, ?_⟩, ofRule_not_mem_dnsAlerts⟩
          · split
            next => exact ofRule_not_mem_doip
            next => exact List.not_mem_nil
          · split
            next => exact ofRule_not_mem_handleSomeip
            next => exact List.not_mem_nil
      | false =>
          rw [udp, if_neg Bool.false_ne_true] at missed
          rw [if_neg Bool.false_ne_true, if_neg missed]
          exact List.not_mem_nil

/-- The frame of a packet from an untrusted source that is no fragment. -/
structure Delivered (monitor : Monitor) (frame : List UInt8) (pp : ParsedPacket) : Prop where
  accepted : parsePacket frame = some pp
  ip : pp.isIpv4 = true ∨ pp.isIpv6 = true
  whole : pp.isFragment = false
  untrusted : monitor.trusted pp.srcIp pp.isIpv6 = false

theorem parsePacket_noArp (accepted : parsePacket frame = some pp)
    (ip : pp.isIpv4 = true ∨ pp.isIpv6 = true) : pp.isArp = false := by
  obtain ⟨p, out, unparsed, ⟨-, rfl⟩ | ⟨-, rfl⟩⟩ := parsePacket_cases accepted ip
  · exact (parseIpv4_version unparsed).1
  · exact (parseIpv6_version unparsed).1

theorem feed_of_delivered (delivered : Delivered monitor frame pp) :
    (monitor.feed state frame nowMs).2 = (monitor.handleL4 state pp nowMs).2 := by
  have noArp := parsePacket_noArp delivered.accepted delivered.ip
  unfold Monitor.feed
  rw [feedFrame_of_parse delivered.accepted noArp delivered.ip, delivered.untrusted,
    delivered.whole, if_neg Bool.false_ne_true, if_neg Bool.false_ne_true]
  exact List.append_nil _

/-- Every rule that a packet has to raise an alert for does so, exactly when there is none or
the packet takes a way on which rules are matched. -/
theorem asked_rules_alert_iff (delivered : Delivered monitor frame pp) (state : MonitorState)
    (nowMs : UInt64) :
    (∀ rule, Asked monitor pp rule →
      PacketAlert.ofRule pp rule ∈ (monitor.feed state frame nowMs).2) ↔
      Inspected pp ∨ ∀ rule, ¬ Asked monitor pp rule := by
  rw [feed_of_delivered delivered]
  have tagged := tagged_parsePacket delivered.accepted delivered.ip
  constructor
  · intro covered
    by_cases inspected : Inspected pp
    · exact .inl inspected
    · exact .inr fun rule asked => ofRule_not_mem_handleL4 inspected (covered rule asked)
  · rintro (inspected | idle) rule asked
    · exact ofRule_mem_handleL4 asked tagged inspected
    · exact absurd asked (idle rule)

end Coverage

section Samples

def monitorSample (rules : List Rule) (noPcre : ∀ rule ∈ rules, rule.pcrePatterns = []) :
    Monitor where
  probe := probeSample rules noPcre
  defrag := .default
  trusted := trustNone
  someipPort := 30490
  services := []

def MonitorState.initial : MonitorState := ⟨.empty, .initial, []⟩

/-- "ab" to port 9. -/
def discardFrame : List UInt8 := ipv4Sample [0, 0] [0, 9, 0, 9, 0, 10, 0, 0, 97, 98]

def discardPacket : ParsedPacket := (parsePacket discardFrame).get (by decide)

theorem asked_rules_alert_sample :
    PacketAlert.ofRule discardPacket (ruleSample .udp) ∈
      ((monitorSample [ruleSample .udp] (by decide)).feed .initial discardFrame 0).2 := by
  have delivered : Delivered (monitorSample [ruleSample .udp] (by decide)) discardFrame
      discardPacket :=
    ⟨(Option.some_get _).symm, by decide, by decide, rfl⟩
  refine (asked_rules_alert_iff delivered .initial 0).mpr (.inl ?_) _
    ⟨List.mem_cons_self, by decide, .inr ⟨by decide, by decide, by decide⟩⟩
  rw [Inspected, if_neg (by decide), if_pos (by decide)]
  decide

/-- A rule for all UDP packets. -/
def udpRule : Rule := { ruleSample .udp with contents := [] }

/-- To the DNS port, but no DNS message. -/
def namelessFrame : List UInt8 := ipv4Sample [0, 0] (udpHeader ++ udpPayload)

theorem nameless_dns_evades_rules :
    ¬ ∀ (monitor : Monitor) (state : MonitorState) (frame : List UInt8) (pp : ParsedPacket)
        (nowMs : UInt64) (rule : Rule),
        Delivered monitor frame pp → pp.truncated = false → Asked monitor pp rule →
          PacketAlert.ofRule pp rule ∈ (monitor.feed state frame nowMs).2 := by
  intro covered
  have alerted := covered (monitorSample [udpRule] (by decide)) .initial namelessFrame ipv4Whole 0
    udpRule ⟨(Option.some_get _).symm, by decide, by decide, rfl⟩ (by decide)
    ⟨List.mem_cons_self, by decide, .inl rfl⟩
  exact absurd alerted (by decide)

end Samples

end Idsm.EthProbe
