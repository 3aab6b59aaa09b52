import Idsm.EthProbe.PortScan

/-! The port table of the scan detector against the ports recomputed from all packets of the
source. The counts have 32 bits. -/

set_option autoImplicit false

namespace Idsm.EthProbe

open Idsm.Foundation

/-! What the packets say. -/

/-- A packet with the time it is fed at. -/
abbrev Fed := ParsedPacket × Nat

abbrev InTime (fed : List Fed) : Prop := fed.Pairwise fun first second => first.2 ≤ second.2

def isFrom (srcIp : List UInt8) (packet : Fed) : Bool :=
  packet.1.isTcp && packet.1.srcIp == srcIp

/-- Times and ports of a source's TCP packets. -/
def observed (srcIp : List UInt8) (fed : List Fed) : List (Nat × UInt16) :=
  (fed.filter (isFrom srcIp)).map fun packet => (packet.2, packet.1.dstPort)

/-- The events with an age below the window. -/
def recent (windowMs : UInt32) (nowMs : Nat) (events : List (Nat × UInt16)) :
    List (Nat × UInt16) :=
  events.filter fun event => nowMs - event.1 < windowMs.toNat

def ports (events : List (Nat × UInt16)) : List UInt16 := events.map Prod.snd

/-- The number of different ports. -/
def distinctPorts (events : List (Nat × UInt16)) : Nat := (ports events).toFinset.card

section Specification

variable (cfg : PortScanConfig) (before : List Fed) (packet : Fed)

/-- The packet's window as the packet comes, and with the packet in it. -/
def expiredWindow : List (Nat × UInt16) :=
  recent cfg.windowMs packet.2 (observed packet.1.srcIp before)

def filledWindow : List (Nat × UInt16) :=
  recent cfg.windowMs packet.2 (observed packet.1.srcIp (before ++ [packet]))

/-- A TCP packet of the source. -/
abbrev From (srcIp : List UInt8) (packet : Fed) : Prop :=
  packet.1.isTcp = true ∧ packet.1.srcIp = srcIp

/-- The source reached the threshold, and no packet since found it below. -/
def Raised (srcIp : List UInt8) : Prop :=
  ∃ prior reaching since, before = prior ++ reaching :: since ∧ From srcIp reaching ∧
    cfg.uniqueThreshold ≤ distinctPorts (filledWindow cfg prior reaching) ∧
    ∀ passed later rest, since = passed ++ later :: rest → From srcIp later →
      cfg.uniqueThreshold ≤ distinctPorts (expiredWindow cfg (prior ++ reaching :: passed) later)

/-- The packet reaches the threshold for the first time since the source was below it. -/
def Reaches : Prop :=
  cfg.uniqueThreshold ≤ distinctPorts (filledWindow cfg before packet) ∧
    ¬ (Raised cfg before packet.1.srcIp ∧
      cfg.uniqueThreshold ≤ distinctPorts (expiredWindow cfg before packet))

end Specification

/-! The table. -/

/-- The table counts these ports, modulo 2^32. -/
def Counts (portCounts : OrderedMap Nat UInt32) (ports : List UInt16) : Prop :=
  ∀ key, portCounts.find? key = if (ports.map UInt16.toNat).count key = 0 then none
    else some (UInt32.ofNat ((ports.map UInt16.toNat).count key))

theorem counts_empty : Counts .empty [] := by
  intro key
  simp

theorem Counts.insert {portCounts : OrderedMap Nat UInt32} {ports : List UInt16}
    (counts : Counts portCounts ports) (port : UInt16) :
    Counts (portCounts.insert port.toNat ((portCounts.find? port.toNat).getD 0 + 1))
      (ports ++ [port]) := by
  intro key
  rw [OrderedMap.find?_insert, List.map_append, List.count_append]
  by_cases same : port.toNat = key
  · subst same
    rw [if_pos rfl, counts]
    by_cases none : (ports.map UInt16.toNat).count port.toNat = 0
    · simp [none]
    · simp [none, UInt32.ofNat_add]
  · rw [if_neg same, counts]
    simp [same]

theorem Counts.forget {portCounts : OrderedMap Nat UInt32} {ports : List UInt16} {port : UInt16}
    (counts : Counts portCounts (port :: ports)) (bounded : (port :: ports).count port < 2 ^ 32) :
    Counts (forgetPort portCounts port) ports := by
  have number : ((port :: ports).map UInt16.toNat).count port.toNat =
      (ports.map UInt16.toNat).count port.toNat + 1 := by
    simp
  have small : (ports.map UInt16.toNat).count port.toNat + 1 < 2 ^ 32 := by
    rw [← number, List.count_map_of_injective _ _ (fun _ _ => UInt16.toNat_inj.mp)]
    exact bounded
  have found := counts port.toNat
  rw [number, if_neg (Nat.succ_ne_zero _), UInt32.ofNat_add] at found
  have others : ∀ key, port.toNat ≠ key → portCounts.find? key =
      if (ports.map UInt16.toNat).count key = 0 then none
      else some (UInt32.ofNat ((ports.map UInt16.toNat).count key)) := by
    intro key other
    rw [counts key, List.map_cons, List.count_cons_of_ne other]
  have less : UInt32.ofNat ((ports.map UInt16.toNat).count port.toNat) + UInt32.ofNat 1 - 1 =
      UInt32.ofNat ((ports.map UInt16.toNat).count port.toNat) := UInt32.add_sub_cancel _ _
  have zero : UInt32.ofNat ((ports.map UInt16.toNat).count port.toNat) = 0 ↔
      (ports.map UInt16.toNat).count port.toNat = 0 := by
    rw [← UInt32.toNat_inj, UInt32.toNat_ofNat_of_lt' (by rw [UInt32.size]; omega)]
    rfl
  intro key
  rw [forgetPort, found]
  simp only [less]
  split
  next gone =>
    rw [OrderedMap.find?_erase]
    by_cases same : port.toNat = key
    · rw [if_pos same, ← same, if_pos (zero.mp gone)]
    · rw [if_neg same, others key same]
  next left =>
    rw [OrderedMap.find?_insert]
    by_cases same : port.toNat = key
    · rw [if_pos same, ← same, if_neg fun none => left (zero.mpr none)]
    · rw [if_neg same, others key same]

/-- The table has one entry for each port. -/
theorem Counts.size {portCounts : OrderedMap Nat UInt32} {ports : List UInt16}
    (counts : Counts portCounts ports) : portCounts.entries.length = ports.toFinset.card := by
  have distinct : (portCounts.entries.map Prod.fst).Nodup := by
    rw [List.nodup_iff_pairwise_ne, List.pairwise_map]
    exact portCounts.ascending.imp fun below => ne_of_lt below
  have same : (portCounts.entries.map Prod.fst).toFinset = (ports.map UInt16.toNat).toFinset := by
    ext key
    rw [List.mem_toFinset, List.mem_toFinset, List.mem_map]
    constructor
    · rintro ⟨⟨name, count⟩, member, rfl⟩
      have found := (portCounts.mem_entries_iff _ _).1 member
      by_contra absent
      rw [counts, if_pos (List.count_eq_zero.mpr absent)] at found
      cases found
    · intro member
      have present : (ports.map UInt16.toNat).count key ≠ 0 :=
        fun none => List.count_eq_zero.mp none member
      have found := counts key
      rw [if_neg present] at found
      exact ⟨_, (portCounts.mem_entries_iff _ _).2 found, rfl⟩
  have image : (ports.map UInt16.toNat).toFinset = ports.toFinset.image UInt16.toNat := by
    ext key
    simp
  calc portCounts.entries.length = (portCounts.entries.map Prod.fst).length := by simp
    _ = (portCounts.entries.map Prod.fst).toFinset.card :=
        (List.toFinset_card_of_nodup distinct).symm
    _ = (ports.toFinset.image UInt16.toNat).card := by rw [same, image]
    _ = ports.toFinset.card :=
        Finset.card_image_of_injective _ fun _ _ => UInt16.toNat_inj.mp

/-! Expiry. -/

/-- No port stands 2^32 times in the events. -/
def Bounded (events : List (Nat × UInt16)) : Prop :=
  ∀ port, (ports events).count port < 2 ^ 32

theorem Bounded.tail {event : Nat × UInt16} {events : List (Nat × UInt16)}
    (bounded : Bounded (event :: events)) : Bounded events := by
  intro port
  refine Nat.lt_of_le_of_lt ?_ (bounded port)
  rw [ports, ports, List.map_cons]
  exact List.count_le_count_cons

/-- In events that are in order, the loop drops what is too old. -/
theorem expireEvents_eq (windowMs : UInt32) (nowMs : Nat) {events : List (Nat × UInt16)}
    {portCounts : OrderedMap Nat UInt32}
    (inOrder : events.Pairwise fun first second => first.1 ≤ second.1) (bounded : Bounded events)
    (counts : Counts portCounts (ports events)) :
    (expireEvents windowMs nowMs events portCounts).1 = recent windowMs nowMs events ∧
      Counts (expireEvents windowMs nowMs events portCounts).2
        (ports (recent windowMs nowMs events)) := by
  induction events generalizing portCounts with
  | nil => exact ⟨rfl, counts⟩
  | cons event events ih =>
      obtain ⟨first, rest⟩ := List.pairwise_cons.mp inOrder
      obtain ⟨time, port⟩ := event
      rw [expireEvents]
      by_cases old : windowMs.toNat ≤ nowMs - time
      · have dropped : recent windowMs nowMs ((time, port) :: events) =
            recent windowMs nowMs events :=
          List.filter_cons_of_neg (by simpa using old)
        rw [if_pos old, dropped]
        exact ih rest bounded.tail (counts.forget (bounded port))
      · have kept : recent windowMs nowMs ((time, port) :: events) = (time, port) :: events := by
          refine List.filter_eq_self.mpr fun later member => ?_
          cases member with
          | head => simpa using old
          | tail _ member =>
              have order := first later member
              simp only [decide_eq_true_eq]
              omega
        rw [if_neg old, kept]
        exact ⟨rfl, counts⟩

/-! One source. -/

/-- The state stands for these events, and its latch for this fact. -/
structure SrcState.Holds (st : SrcState) (events : List (Nat × UInt16)) (latched : Prop) : Prop where
  same : st.events = events
  counts : Counts st.portCounts (ports events)
  latch : st.alerted = true ↔ latched

section Source

variable {st : SrcState} {events : List (Nat × UInt16)} {latched : Prop}

private theorem distinct_size {portCounts : OrderedMap Nat UInt32}
    (counts : Counts portCounts (ports events)) :
    portCounts.entries.length = distinctPorts events := counts.size

/-- One packet of the source. -/
theorem SrcState.Holds.feed_holds (holds : st.Holds events latched) (cfg : PortScanConfig)
    (pp : ParsedPacket) (nowMs : Nat)
    (inOrder : events.Pairwise fun first second => first.1 ≤ second.1) (bounded : Bounded events) :
    (st.feed cfg pp nowMs).1.Holds (recent cfg.windowMs nowMs events ++ [(nowMs, pp.dstPort)])
        (cfg.uniqueThreshold ≤
            distinctPorts (recent cfg.windowMs nowMs events ++ [(nowMs, pp.dstPort)]) ∨
          latched ∧ cfg.uniqueThreshold ≤ distinctPorts (recent cfg.windowMs nowMs events)) ∧
      ((st.feed cfg pp nowMs).2.isSome = true ↔ cfg.uniqueThreshold ≤
          distinctPorts (recent cfg.windowMs nowMs events ++ [(nowMs, pp.dstPort)]) ∧
        ¬ (latched ∧
          cfg.uniqueThreshold ≤ distinctPorts (recent cfg.windowMs nowMs events))) ∧
      ∀ alert ∈ (st.feed cfg pp nowMs).2, alert = ⟨pp, UInt32.ofNat
        (distinctPorts (recent cfg.windowMs nowMs events ++ [(nowMs, pp.dstPort)]))⟩ := by
  obtain ⟨rfl, counts, latch⟩ := holds
  obtain ⟨expired, expiredCounts⟩ := expireEvents_eq cfg.windowMs nowMs inOrder bounded counts
  have appended : ports (recent cfg.windowMs nowMs st.events) ++ [pp.dstPort] =
      ports (recent cfg.windowMs nowMs st.events ++ [(nowMs, pp.dstPort)]) := by
    simp [ports]
  have filled := expiredCounts.insert pp.dstPort
  rw [appended] at filled
  have size := distinct_size expiredCounts
  have filledSize := distinct_size filled
  have alerted : (if distinctPorts (recent cfg.windowMs nowMs st.events) < cfg.uniqueThreshold then
        false else st.alerted) = true ↔
      latched ∧ cfg.uniqueThreshold ≤ distinctPorts (recent cfg.windowMs nowMs st.events) := by
    rw [← latch]
    by_cases below : distinctPorts (recent cfg.windowMs nowMs st.events) < cfg.uniqueThreshold
    · simp [below]
    · simpa [below] using fun _ => Nat.le_of_not_lt below
  rw [SrcState.feed]
  simp only [expired, size, filledSize]
  rw [← alerted]
  generalize (if distinctPorts (recent cfg.windowMs nowMs st.events) < cfg.uniqueThreshold then
    false else st.alerted) = latch'
  split
  next reached =>
    refine ⟨⟨rfl, filled, ?_⟩, ?_, fun alert raised => ?_⟩
    · exact ⟨fun _ => .inl reached.1, fun _ => rfl⟩
    · simp [reached.1, reached.2]
    · cases raised
      rfl
  next missed =>
    refine ⟨⟨rfl, filled, ?_⟩, ?_, fun alert raised => (by cases raised)⟩
    · refine ⟨.inr, fun either => ?_⟩
      rcases either with reached | latched
      · by_contra silent
        exact missed ⟨reached, by simpa using silent⟩
      · exact latched
    · refine ⟨fun raised => (by cases raised), fun both => absurd ⟨both.1, ?_⟩ missed⟩
      simpa using both.2

end Source

/-! All sources. -/

section Runs

variable {cfg : PortScanConfig} {before fed : List Fed} {packet : Fed} {srcIp : List UInt8}

private theorem isFrom_iff : isFrom srcIp packet = true ↔ From srcIp packet := by
  simp [isFrom]

theorem observed_own (own : From srcIp packet) : observed srcIp (before ++ [packet]) =
    observed srcIp before ++ [(packet.2, packet.1.dstPort)] := by
  rw [observed, List.filter_append, List.filter_cons_of_pos (isFrom_iff.2 own), List.map_append]
  rfl

theorem observed_other (other : ¬ From srcIp packet) :
    observed srcIp (before ++ [packet]) = observed srcIp before := by
  rw [observed, List.filter_append, List.filter_cons_of_neg fun own => other (isFrom_iff.1 own),
    List.filter_nil, List.append_nil]
  rfl

theorem observed_inOrder (inTime : InTime fed) (srcIp : List UInt8) :
    (observed srcIp fed).Pairwise fun first second => first.1 ≤ second.1 := by
  rw [observed, List.pairwise_map]
  exact List.Pairwise.filter _ inTime

theorem observed_late (inTime : InTime (before ++ [packet])) (srcIp : List UInt8) :
    ∀ event ∈ observed srcIp before, event.1 ≤ packet.2 := by
  intro event member
  obtain ⟨earlier, place, rfl⟩ := List.mem_map.mp member
  exact (List.pairwise_append.mp inTime).2.2 earlier (List.mem_filter.mp place).1 packet (by simp)

/-- The time of the last event. -/
def lastTime (events : List (Nat × UInt16)) : Nat := (events.getLast?.map Prod.fst).getD 0

/-- What a source's state stands for: its window when its last packet came. -/
def storedWindow (cfg : PortScanConfig) (srcIp : List UInt8) (fed : List Fed) :
    List (Nat × UInt16) :=
  recent cfg.windowMs (lastTime (observed srcIp fed)) (observed srcIp fed)

theorem storedWindow_own (own : From srcIp packet) :
    storedWindow cfg srcIp (before ++ [packet]) =
      recent cfg.windowMs packet.2 (observed srcIp (before ++ [packet])) := by
  rw [storedWindow, observed_own own]
  simp [lastTime]

private theorem recent_recent {windowMs : UInt32} {earlier now : Nat}
    {events : List (Nat × UInt16)} (later : earlier ≤ now) :
    recent windowMs now (recent windowMs earlier events) = recent windowMs now events := by
  rw [recent, recent, recent, List.filter_filter]
  refine List.filter_congr fun event _ => ?_
  simp only [Bool.and_eq_left_iff_imp, decide_eq_true_eq]
  omega

theorem lastTime_le {events : List (Nat × UInt16)} {now : Nat}
    (late : ∀ event ∈ events, event.1 ≤ now) : lastTime events ≤ now := by
  rw [lastTime]
  cases last : events.getLast? with
  | none => exact Nat.zero_le _
  | some event => exact late event (List.mem_of_getLast? last)

theorem recent_storedWindow (inTime : InTime (before ++ [packet])) (srcIp : List UInt8) :
    recent cfg.windowMs packet.2 (storedWindow cfg srcIp before) =
      recent cfg.windowMs packet.2 (observed srcIp before) :=
  recent_recent (lastTime_le (observed_late inTime srcIp))

theorem filledWindow_eq (positive : cfg.windowMs ≠ 0) (tcp : packet.1.isTcp = true) :
    filledWindow cfg before packet =
      expiredWindow cfg before packet ++ [(packet.2, packet.1.dstPort)] := by
  have length : 0 < cfg.windowMs.toNat :=
    Nat.pos_of_ne_zero fun zero => positive (UInt32.toNat_inj.mp zero)
  rw [filledWindow, observed_own ⟨tcp, rfl⟩, recent, List.filter_append, expiredWindow, recent]
  simp [length]

/-- What a packet makes of the latch. -/
theorem raised_append : Raised cfg (before ++ [packet]) srcIp ↔
    (From srcIp packet ∧ cfg.uniqueThreshold ≤ distinctPorts (filledWindow cfg before packet)) ∨
      Raised cfg before srcIp ∧ (From srcIp packet →
        cfg.uniqueThreshold ≤ distinctPorts (expiredWindow cfg before packet)) := by
  constructor
  · rintro ⟨prior, reaching, since, shape, own, reached, stayed⟩
    rcases List.eq_nil_or_concat since with rfl | ⟨rest, last, rfl⟩
    · obtain ⟨rfl, same⟩ := List.append_inj' shape rfl
      cases same
      exact .inl ⟨own, reached⟩
    · rw [List.concat_eq_append, ← List.cons_append, ← List.append_assoc] at shape
      obtain ⟨rfl, same⟩ := List.append_inj' shape rfl
      cases same
      rw [List.concat_eq_append] at stayed
      refine .inr ⟨⟨prior, reaching, rest, rfl, own, reached, ?_⟩, ?_⟩
      · rintro passed later behind rfl from'
        exact stayed passed later (behind ++ [packet]) (by simp) from'
      · intro from'
        exact stayed rest packet [] rfl from'
  · rintro (⟨own, reached⟩ | ⟨⟨prior, reaching, since, rfl, own, reached, stayed⟩, now⟩)
    · refine ⟨before, packet, [], rfl, own, reached, ?_⟩
      intro passed later rest shape
      exact absurd shape (by simp)
    · refine ⟨prior, reaching, since ++ [packet], by simp, own, reached, ?_⟩
      intro passed later rest shape from'
      rcases List.eq_nil_or_concat rest with rfl | ⟨behind, last, rfl⟩
      · obtain ⟨rfl, same⟩ := List.append_inj' shape rfl
        cases same
        exact now from'
      · rw [List.concat_eq_append, ← List.cons_append, ← List.append_assoc] at shape
        obtain ⟨rfl, _⟩ := List.append_inj' shape rfl
        exact stayed passed later behind rfl from'

def sourcesAfter (cfg : PortScanConfig) (fed : List Fed) : Sources :=
  fed.foldl (fun sources packet => (PortScan.feed cfg sources packet.1 packet.2).1) .empty

theorem sourcesAfter_append : sourcesAfter cfg (before ++ [packet]) =
    (PortScan.feed cfg (sourcesAfter cfg before) packet.1 packet.2).1 := by
  rw [sourcesAfter, List.foldl_append]
  rfl

theorem key16_inj {first second : List UInt8} : key16 first = key16 second ↔ first = second :=
  (List.map_injective_iff.mpr fun _ _ => UInt8.toNat_inj.mp).eq_iff

/-- Only the source's own packets change its state. -/
theorem source_feed (sources : Sources) : (PortScan.feed cfg sources packet.1 packet.2).1.source srcIp =
    if From srcIp packet then ((sources.source srcIp).feed cfg packet.1 packet.2).1
    else sources.source srcIp := by
  rw [PortScan.feed]
  by_cases tcp : packet.1.isTcp = true
  · rw [if_pos tcp]
    by_cases same : packet.1.srcIp = srcIp
    · rw [if_pos ⟨tcp, same⟩, Sources.source, ← same, OrderedMap.find?_insert_self]
      rfl
    · rw [if_neg fun own => same own.2, Sources.source,
        OrderedMap.find?_insert_of_ne _ _ fun keys => same (key16_inj.1 keys)]
      rfl
  · rw [if_neg tcp, if_neg fun own => tcp own.1]

/-- No window of the run holds a port 2^32 times. -/
def BoundedRun (cfg : PortScanConfig) (fed : List Fed) : Prop :=
  ∀ before packet, before ++ [packet] <+: fed → packet.1.isTcp = true →
    Bounded (filledWindow cfg before packet)

theorem storedWindow_bounded (bounded : BoundedRun cfg fed) : Bounded (storedWindow cfg srcIp fed) := by
  induction fed using List.reverseRecOn with
  | nil =>
      intro port
      exact Nat.two_pow_pos 32
  | append_singleton before packet ih =>
      by_cases own : From srcIp packet
      · rw [storedWindow_own own, ← own.2]
        exact bounded before packet (List.prefix_refl _) own.1
      · rw [storedWindow, observed_other own, ← storedWindow]
        exact ih fun prior earlier place =>
          bounded prior earlier (place.trans (List.prefix_append before [packet]))

/-- Each source's state stands for its window, and its latch for the threshold. -/
theorem run_holds (positive : cfg.windowMs ≠ 0) (inTime : InTime fed)
    (bounded : ∀ before packet, fed = before ++ [packet] → BoundedRun cfg before)
    (srcIp : List UInt8) :
    ((sourcesAfter cfg fed).source srcIp).Holds (storedWindow cfg srcIp fed)
      (Raised cfg fed srcIp) := by
  induction fed using List.reverseRecOn with
  | nil =>
      refine ⟨rfl, counts_empty, ⟨fun alerted => (by cases alerted), ?_⟩⟩
      rintro ⟨prior, reaching, since, shape, _⟩
      exact absurd shape (by simp)
  | append_singleton before packet ih =>
      have earlier : BoundedRun cfg before := bounded before packet rfl
      have holds := ih (List.pairwise_append.mp inTime).1 fun prior last shape prior' last' place =>
        earlier prior' last' (place.trans (by rw [shape]; exact List.prefix_append prior [last]))
      rw [sourcesAfter_append, source_feed]
      by_cases own : From srcIp packet
      · have inOrder : (storedWindow cfg srcIp before).Pairwise
            fun first second => first.1 ≤ second.1 :=
          (observed_inOrder (List.pairwise_append.mp inTime).1 srcIp).filter _
        have step := (holds.feed_holds cfg packet.1 packet.2 inOrder
          (storedWindow_bounded earlier)).1
        obtain ⟨tcp, rfl⟩ := own
        rw [recent_storedWindow inTime, ← expiredWindow, ← filledWindow_eq positive tcp] at step
        rw [if_pos ⟨tcp, rfl⟩, storedWindow_own ⟨tcp, rfl⟩, ← filledWindow]
        refine ⟨step.same, step.counts, step.latch.trans ?_⟩
        have own : From packet.1.srcIp packet := ⟨tcp, rfl⟩
        rw [raised_append]
        refine or_congr (and_iff_right own).symm (and_congr_right fun _ => ?_)
        exact ⟨fun reached _ => reached, fun reached => reached own⟩
      · have same : Raised cfg (before ++ [packet]) srcIp ↔ Raised cfg before srcIp := by
          rw [raised_append]
          simp [own]
        rw [if_neg own, storedWindow, observed_other own, ← storedWindow]
        exact ⟨holds.same, holds.counts, holds.latch.trans same.symm⟩

/-! Every feed of a run. -/

def alertAt (cfg : PortScanConfig) (before : List Fed) (packet : Fed) : Option ScanAlert :=
  (PortScan.feed cfg (sourcesAfter cfg before) packet.1 packet.2).2

/-- The table of the packet's source is the recomputed one, and the alert is the threshold's. -/
structure ScannedAt (cfg : PortScanConfig) (before : List Fed) (packet : Fed) : Prop where
  events : packet.1.isTcp = true →
    ((sourcesAfter cfg (before ++ [packet])).source packet.1.srcIp).events =
      filledWindow cfg before packet
  histogram : packet.1.isTcp = true → ∀ port : UInt16,
    (((sourcesAfter cfg (before ++ [packet])).source packet.1.srcIp).portCounts.find?
        port.toNat).map UInt32.toNat =
      if (ports (filledWindow cfg before packet)).count port = 0 then none
      else some ((ports (filledWindow cfg before packet)).count port)
  size : packet.1.isTcp = true →
    ((sourcesAfter cfg (before ++ [packet])).source packet.1.srcIp).portCounts.entries.length =
      distinctPorts (filledWindow cfg before packet)
  crossing : (alertAt cfg before packet).isSome = true ↔
    packet.1.isTcp = true ∧ Reaches cfg before packet
  reported : ∀ alert ∈ alertAt cfg before packet,
    alert = ⟨packet.1, UInt32.ofNat (distinctPorts (filledWindow cfg before packet))⟩
  others : ∀ srcIp, ¬ From srcIp packet →
    (sourcesAfter cfg (before ++ [packet])).source srcIp = (sourcesAfter cfg before).source srcIp

theorem BoundedRun.of_prefix (bounded : BoundedRun cfg fed) (front : before <+: fed) :
    BoundedRun cfg before :=
  fun prior earlier place => bounded prior earlier (place.trans front)

private theorem count_toNat (ports : List UInt16) (port : UInt16) :
    (ports.map UInt16.toNat).count port.toNat = ports.count port :=
  List.count_map_of_injective _ _ (fun _ _ => UInt16.toNat_inj.mp) _

theorem alertAt_iff (positive : cfg.windowMs ≠ 0) (inTime : InTime (before ++ [packet]))
    (bounded : BoundedRun cfg before) :
    ((alertAt cfg before packet).isSome = true ↔
        packet.1.isTcp = true ∧ Reaches cfg before packet) ∧
      ∀ alert ∈ alertAt cfg before packet,
        alert = ⟨packet.1, UInt32.ofNat (distinctPorts (filledWindow cfg before packet))⟩ := by
  rw [alertAt, PortScan.feed]
  by_cases tcp : packet.1.isTcp = true
  · have holds := run_holds positive (List.pairwise_append.mp inTime).1
      (fun prior last shape => bounded.of_prefix (by rw [shape]; exact List.prefix_append prior [last]))
      packet.1.srcIp
    have inOrder : (storedWindow cfg packet.1.srcIp before).Pairwise
        fun first second => first.1 ≤ second.1 :=
      (observed_inOrder (List.pairwise_append.mp inTime).1 _).filter _
    have step := (holds.feed_holds cfg packet.1 packet.2 inOrder (storedWindow_bounded bounded)).2
    rw [recent_storedWindow inTime, ← expiredWindow, ← filledWindow_eq positive tcp] at step
    simp only [tcp, if_true, true_and]
    exact step
  · simp [tcp]

/-- As long as no count overflows, the detector's windows are the recomputed ones. -/
theorem windows_recomputed (positive : cfg.windowMs ≠ 0) (inTime : InTime fed)
    (bounded : BoundedRun cfg fed) :
    ∀ before packet, before ++ [packet] <+: fed → ScannedAt cfg before packet := by
  intro before packet place
  have order : InTime (before ++ [packet]) := inTime.sublist place.sublist
  have whole : BoundedRun cfg (before ++ [packet]) := bounded.of_prefix place
  have earlier : BoundedRun cfg before := whole.of_prefix (List.prefix_append before [packet])
  obtain ⟨crossing, reported⟩ := alertAt_iff positive order earlier
  have holds := run_holds positive order
    (fun prior last shape => whole.of_prefix (by rw [shape]; exact List.prefix_append prior [last]))
    packet.1.srcIp
  have stored : packet.1.isTcp = true →
      storedWindow cfg packet.1.srcIp (before ++ [packet]) = filledWindow cfg before packet :=
    fun tcp => storedWindow_own ⟨tcp, rfl⟩
  refine ⟨fun tcp => ?_, fun tcp port => ?_, fun tcp => ?_, crossing, reported, fun srcIp other => ?_⟩
  · rw [holds.same, stored tcp]
  · have small := whole before packet (List.prefix_refl _) tcp port
    have kept : (UInt32.ofNat ((ports (filledWindow cfg before packet)).count port)).toNat =
        (ports (filledWindow cfg before packet)).count port := UInt32.toNat_ofNat_of_lt' small
    rw [holds.counts, stored tcp, count_toNat]
    split
    · rfl
    · rw [Option.map_some, kept]
  · rw [holds.counts.size, stored tcp]
    rfl
  · rw [sourcesAfter_append, source_feed, if_neg other]

end Runs

/-! Two runs. In the second a count overflows. -/

section Samples

private def scanPacket (port : UInt16) : ParsedPacket :=
  { ParsedPacket.empty with isTcp := true, dstPort := port }

private theorem bounded_of_short {cfg : PortScanConfig} {fed : List Fed}
    (short : fed.length < 2 ^ 32) : BoundedRun cfg fed := by
  intro before packet place _ port
  have first : (ports (filledWindow cfg before packet)).count port ≤
      (filledWindow cfg before packet).length :=
    List.count_le_length.trans (by rw [ports, List.length_map])
  have second : (filledWindow cfg before packet).length ≤ (before ++ [packet]).length := by
    refine (List.length_filter_le _ _).trans ?_
    rw [observed, List.length_map]
    exact List.length_filter_le _ _
  exact Nat.lt_of_le_of_lt (first.trans (second.trans place.length_le)) short

theorem windows_recomputed_sample :
    ScannedAt ⟨10000, 2⟩ [(scanPacket 80, 0)] (scanPacket 81, 10) :=
  windows_recomputed (by decide) (by decide)
    (bounded_of_short (by decide)) _ _ (List.prefix_refl _)

private theorem filledWindow_replicate (number : Nat) :
    filledWindow {} (List.replicate number (scanPacket 80, 0)) (scanPacket 80, 0) =
      List.replicate (number + 1) (0, 80) := by
  have own : isFrom (scanPacket 80).srcIp (scanPacket 80, 0) = true := by decide
  rw [filledWindow, ← List.replicate_succ', observed, List.filter_replicate, if_pos own,
    List.map_replicate, recent, List.filter_replicate]
  exact if_pos (by decide)

private theorem storedWindow_replicate (number : Nat) : storedWindow {} (scanPacket 80).srcIp
    (List.replicate number (scanPacket 80, 0) ++ [(scanPacket 80, 0)]) =
      List.replicate (number + 1) (0, 80) := by
  rw [← filledWindow_replicate number, filledWindow]
  exact storedWindow_own ⟨rfl, rfl⟩

private theorem stored_replicate {number : Nat} (short : number < 2 ^ 32) :
    ((sourcesAfter {} (List.replicate number (scanPacket 80, 0) ++ [(scanPacket 80, 0)])).source
      (scanPacket 80).srcIp).portCounts.find? 80 = some (UInt32.ofNat (number + 1)) := by
  have inTime : InTime (List.replicate number (scanPacket 80, 0) ++ [(scanPacket 80, 0)]) := by
    rw [← List.replicate_succ']
    exact List.pairwise_replicate.mpr (.inr (Nat.le_refl 0))
  have bounded : ∀ before packet, List.replicate number (scanPacket 80, 0) ++
      [(scanPacket 80, 0)] = before ++ [packet] → BoundedRun {} before := by
    intro before packet shape
    obtain ⟨rfl, _⟩ := List.append_inj' shape rfl
    exact bounded_of_short (by simpa using short)
  have counts := (run_holds (by decide) inTime bounded (scanPacket 80).srcIp).counts
  rw [storedWindow_replicate] at counts
  have counted : ((ports (List.replicate (number + 1) (0, (80 : UInt16)))).map UInt16.toNat).count 80 =
      number + 1 := by
    rw [ports, List.map_replicate, List.map_replicate]
    exact List.count_replicate_self
  rw [counts 80, counted, if_neg (Nat.succ_ne_zero number)]

/-- After 2^32 packets to one port in one window, its count is zero. -/
theorem count_overflows : ¬ ∀ (cfg : PortScanConfig) (fed : List Fed), cfg.windowMs ≠ 0 →
    InTime fed → ∀ before packet, before ++ [packet] <+: fed → ScannedAt cfg before packet := by
  intro all
  obtain ⟨number, overflow⟩ : ∃ number, number + 1 = 2 ^ 32 := ⟨2 ^ 32 - 1, by decide⟩
  have inTime : InTime (List.replicate number (scanPacket 80, 0) ++ [(scanPacket 80, 0)]) := by
    rw [← List.replicate_succ']
    exact List.pairwise_replicate.mpr (.inr (Nat.le_refl 0))
  have law := (all {} _ (by decide) inTime _ _ (List.prefix_refl _)).histogram rfl 80
  have counted : (ports (List.replicate (number + 1) ((0, 80) : Nat × UInt16))).count 80 =
      number + 1 := by
    rw [ports, List.map_replicate]
    exact List.count_replicate_self
  rw [filledWindow_replicate, counted, if_neg (Nat.succ_ne_zero number)] at law
  have stored := stored_replicate (show number < 2 ^ 32 by omega)
  have port : (80 : UInt16).toNat = 80 := rfl
  rw [port, stored, overflow, Option.map_some, Option.some.injEq] at law
  exact absurd law (by decide)

end Samples

end Idsm.EthProbe
