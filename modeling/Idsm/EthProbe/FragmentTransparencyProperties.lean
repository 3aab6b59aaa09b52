import Idsm.EthProbe.FragmentationProperties

/-! The frame path while the fragments of one packet come in, in any order and among others. -/

set_option autoImplicit false

namespace Idsm.EthProbe

open Idsm.Foundation

/-- A frame with a fragment of the packet in question, another frame, or the clock. -/
inductive FrameEvent where
  | fragment (frame : List UInt8) (nowMs : UInt64)
  | other (frame : List UInt8) (nowMs : UInt64)
  | tick (nowMs : UInt64)
  deriving DecidableEq, Repr

def FrameEvent.own : FrameEvent → Option (List UInt8)
  | .fragment frame _ => some frame
  | _ => none

def FrameCall.l4View : FrameCall → Option L4View
  | .reassemblyAlert _ _ => none
  | .handleL4 pp => some pp.l4View

/-- What the transport layer is given. -/
def handled (calls : List FrameCall) : List L4View := calls.filterMap FrameCall.l4View

section System

variable (cfg : DefragConfig) (trusted : List UInt8 → Bool → Bool) (state : IpDefrag)

def frameStep : FrameEvent → Option IpDefrag
  | .fragment frame nowMs => some (feedFrame cfg trusted state frame nowMs).1
  | .other frame nowMs => some (feedFrame cfg trusted state frame nowMs).1
  | .tick nowMs => some (state.expire cfg.timeoutMs nowMs).1

def FrameEvent.views : FrameEvent → List L4View
  | .fragment frame nowMs => handled (feedFrame cfg trusted state frame nowMs).2
  | .other _ _ => []
  | .tick _ => []

/-- What the transport layer is given for the fragments of the packet. -/
def ownViews (transitions : List (Transition IpDefrag FrameEvent)) : List L4View :=
  transitions.flatMap fun transition => transition.event.views cfg trusted transition.before

/-- A fragment that gets as far as the reassembly fits. -/
def FrameFits (frame : List UInt8) : Prop :=
  ∀ fp, parsePacket frame = some fp → fp.isFragment = true →
    trusted fp.srcIp fp.isIpv6 = false → Fits cfg state fp

instance (fp : ParsedPacket) : Decidable (Fits cfg state fp) :=
  decidable_of_iff ((state.find fp.fragKey = none → state.table.length < cfg.maxDatagrams) ∧
      state.memUsed + (state.datagram fp.fragKey).grow fp.fragOffset fp.l4Data.length ≤
        cfg.maxMemBytes)
    ⟨fun fits => ⟨fits.1, fits.2⟩, fun fits => ⟨fits.entries, fits.memory⟩⟩

instance (frame : List UInt8) : Decidable (FrameFits cfg trusted state frame) :=
  inferInstanceAs (Decidable (∀ fp ∈ parsePacket frame, fp.isFragment = true →
    trusted fp.srcIp fp.isIpv6 = false → Fits cfg state fp))

/-- No cap is reached, no other datagram has the key, and the clock comes before the timeout. -/
def Undisturbed (key : FragKey) : FrameEvent → Prop
  | .fragment frame _ => FrameFits cfg trusted state frame
  | .other frame _ => FrameFits cfg trusted state frame ∧
      ∀ fp, parsePacket frame = some fp → fp.isFragment = true → fp.fragKey ≠ key
  | .tick nowMs => ∀ entry ∈ state.table, entry.1 = key →
      nowMs - entry.2.lastSeenMs < cfg.timeoutMs

instance (key : FragKey) : DecidablePred (Undisturbed cfg trusted state key) := fun event =>
  match event with
  | .fragment frame _ => inferInstanceAs (Decidable (FrameFits cfg trusted state frame))
  | .other frame _ => inferInstanceAs (Decidable (FrameFits cfg trusted state frame ∧
      ∀ fp ∈ parsePacket frame, fp.isFragment = true → fp.fragKey ≠ key))
  | .tick nowMs => inferInstanceAs (Decidable (∀ entry ∈ state.table, entry.1 = key →
      nowMs - entry.2.lastSeenMs < cfg.timeoutMs))

end System

section Frames

variable {cfg : DefragConfig} {trusted : List UInt8 → Bool → Bool} {state : IpDefrag}
  {frame : List UInt8} {fp : ParsedPacket} {nowMs : UInt64} {key : FragKey}

theorem feedFrame_of_parse (parsed : parsePacket frame = some fp) (noArp : fp.isArp = false)
    (ip : fp.isIpv4 = true ∨ fp.isIpv6 = true) :
    feedFrame cfg trusted state frame nowMs =
      if trusted fp.srcIp fp.isIpv6 then (state, [])
      else if fp.isFragment then handleFragment cfg state fp nowMs
      else (state, [.handleL4 fp]) := by
  have known : ¬ (¬ fp.isIpv4 = true ∧ ¬ fp.isIpv6 = true) := by
    rintro ⟨no4, no6⟩
    exact ip.elim no4 no6
  rw [feedFrame, parsed]
  dsimp only
  rw [noArp, if_neg known]
  simp [ip]

/-- A fragment that fits: its datagram changes, and is handed on when it is complete. -/
theorem handleFragment_find (fits : Fits cfg state fp) (something : fp.l4Data ≠ [])
    (inside : fp.fragOffset < maxDatagramLen) :
    (∀ other, (handleFragment cfg state fp nowMs).1.find other =
      if other = fp.fragKey then
        if (state.fed fp nowMs).complete then none else some (state.fed fp nowMs)
      else state.find other) ∧
    handled (handleFragment cfg state fp nowMs).2 =
      if (state.fed fp nowMs).complete then
        [(reassembledPacket fp
          ((state.fed fp nowMs).buf.take (state.fed fp nowMs).totalLen)).l4View]
      else [] := by
  obtain ⟨found, result⟩ := @addFragment_find cfg state fp nowMs fits something inside
  unfold handleFragment
  rw [if_neg something]
  refine ⟨found, ?_⟩
  dsimp only
  rw [result]
  cases (state.fed fp nowMs).complete with
  | false => rfl
  | true => rfl

theorem handleFragment_skips (skipped : fp.l4Data = [] ∨ maxDatagramLen ≤ fp.fragOffset) :
    (handleFragment cfg state fp nowMs).1 = state := by
  unfold handleFragment
  split
  next => rfl
  next something =>
    rw [addFragment, if_pos skipped]

/-- A frame of another datagram leaves the entry alone. -/
theorem find_feedFrame_of_ne (fits : FrameFits cfg trusted state frame)
    (apart : ∀ fp, parsePacket frame = some fp → fp.isFragment = true → fp.fragKey ≠ key) :
    (feedFrame cfg trusted state frame nowMs).1.find key = state.find key := by
  unfold feedFrame
  split
  next => rfl
  next fp parsed =>
    split
    next => rfl
    next untrusted =>
      split
      next => rfl
      next noArp =>
        split
        next => rfl
        next ip =>
          split
          next fragment =>
            have ip : fp.isIpv4 = true ∨ fp.isIpv6 = true := by
              by_contra neither
              exact ip (not_or.mp neither)
            have known : trusted fp.srcIp fp.isIpv6 = false := by
              rw [← Bool.not_eq_true]
              exact fun trust => untrusted ⟨ip, trust⟩
            by_cases skipped : fp.l4Data = [] ∨ maxDatagramLen ≤ fp.fragOffset
            · rw [handleFragment_skips skipped]
            · obtain ⟨something, inside⟩ := not_or.mp skipped
              rw [(handleFragment_find (fits fp parsed fragment known) something
                (Nat.not_le.mp inside)).1, if_neg (Ne.symm (apart fp parsed fragment))]
          next => rfl

end Frames

section Runs

variable {cfg : DefragConfig} {trusted : List UInt8 → Bool → Bool} {frame : List UInt8}
  {pp : ParsedPacket} {headers : Nat} {next : UInt8} {id : UInt32} {data : List UInt8}
  {state later : IpDefrag} {transitions : List (Transition IpDefrag FrameEvent)}
  {order fed pending : List Piece} {piece : Piece} {carrier : List UInt8} {nowMs : UInt64}

/-- The entry of the packet's fragments. -/
def fragmentKey (pp : ParsedPacket) (next : UInt8) (id : UInt32) : FragKey :=
  ⟨pp.srcIp, pp.dstIp, id, next, pp.isIpv6⟩

/-- One fragment of the packet. -/
theorem feedFrame_fragment {fp : ParsedPacket} (parsed : parsePacket carrier = some fp)
    (views : fp.l3View = fragmentView pp next id piece)
    (ip : pp.isIpv4 = true ∨ pp.isIpv6 = true) (untrusted : trusted pp.srcIp pp.isIpv6 = false)
    (fits : FrameFits cfg trusted state carrier) (something : piece.data ≠ [])
    (bounded : piece.start + piece.data.length ≤ maxDatagramLen) :
    let dg := ((state.datagram (fragmentKey pp next id)).seen nowMs).put piece.start piece.data
      piece.more
    (feedFrame cfg trusted state carrier nowMs).1.find (fragmentKey pp next id) =
        (if dg.complete then none else some dg) ∧
      handled (feedFrame cfg trusted state carrier nowMs).2 =
        if dg.complete then [carriedView pp next (dg.buf.take dg.totalLen)] else [] := by
  simp only [ParsedPacket.l3View, fragmentView, L3View.mk.injEq] at views
  obtain ⟨noArp, v4, v6, src, dst, proto, fragment, fragId, offset, more, carried⟩ := views
  have key : fp.fragKey = fragmentKey pp next id := by
    rw [ParsedPacket.fragKey, src, dst, fragId, proto, v6, fragmentKey]
  have positive := List.length_pos_iff.mpr something
  have dg : state.fed fp nowMs = ((state.datagram (fragmentKey pp next id)).seen nowMs).put
      piece.start piece.data piece.more := by
    rw [IpDefrag.fed, key, offset, more, carried, fragLen_of_le bounded, List.take_length]
  have same : ∀ bytes, (reassembledPacket fp bytes).l4View = carriedView pp next bytes := by
    intro bytes
    rw [reassembledPacket, parseL4Only, proto, carriedView]
    refine parseL4_l4View ?_
    simp only [ParsedPacket.l4View, l4Base, v4, v6, src, dst]
  have fitting := fits fp parsed fragment (by rw [src, v6]; exact untrusted)
  obtain ⟨found, given⟩ := @handleFragment_find cfg state fp nowMs fitting (carried ▸ something)
    (by rw [offset]; omega)
  intro
  rw [feedFrame_of_parse parsed noArp (by rw [v4, v6]; exact ip), src, v6, untrusted, fragment,
    if_neg Bool.false_ne_true, if_pos rfl, found, given, key, if_pos rfl, dg, same]
  exact ⟨rfl, rfl⟩

/-- A run in which the pieces that are pending come in. -/
theorem ownViews_run (packet : Whole frame pp headers next data)
    (few : pp.isIpv6 = true → headers < maxHops) (untrusted : trusted pp.srcIp pp.isIpv6 = false)
    (bounded : data.length ≤ maxDatagramLen)
    (run : Execution (frameStep cfg trusted) state transitions later)
    (undisturbed : ∀ transition ∈ transitions,
      Undisturbed cfg trusted transition.before (fragmentKey pp next id) transition.event)
    (partition : Partition data (fed ++ pending))
    (several : ∀ piece ∈ pending, piece.more = true ∨ 0 < piece.start)
    (collected : pending ≠ [] →
      Collected data fed (state.datagram (fragmentKey pp next id)))
    (arrive : List.Forall₂ (Carries pp headers next id) pending
      (transitions.filterMap fun transition => transition.event.own)) :
    ownViews cfg trusted transitions =
      if pending = [] then [] else [carriedView pp next data] := by
  induction run generalizing fed pending with
  | stop state =>
      cases arrive
      rfl
  | @next state middle last event transitions here rest ih =>
      have calm := undisturbed _ List.mem_cons_self
      have others := fun transition member => undisturbed transition
        (List.mem_cons_of_mem _ member)
      have unchanged : middle.find (fragmentKey pp next id) =
          state.find (fragmentKey pp next id) → (pending ≠ [] →
            Collected data fed (middle.datagram (fragmentKey pp next id))) := by
        intro same some
        rw [IpDefrag.datagram, same]
        exact collected some
      cases event with
      | other frame nowMs =>
          cases here
          exact ih others partition several
            (unchanged (find_feedFrame_of_ne calm.1 calm.2)) arrive
      | tick nowMs =>
          cases here
          exact ih others partition several (unchanged (IpDefrag.find_expire calm)) arrive
      | fragment carrier nowMs =>
          cases here
          replace arrive : List.Forall₂ (Carries pp headers next id) pending
              (carrier :: transitions.filterMap fun transition => transition.event.own) := arrive
          cases arrive with
          | @cons piece _ waiting _ carries arrive =>
              obtain ⟨stands, something⟩ := partition.stands piece (by simp)
              have within := stands.end_le something
              have here := collected (List.cons_ne_nil _ _)
              obtain ⟨fp, parsed, views⟩ := packet.parse_carried carries something
                (several piece List.mem_cons_self) few
              obtain ⟨found, given⟩ := @feedFrame_fragment cfg trusted pp next id state piece carrier
                nowMs fp parsed views packet.ip untrusted calm something (by omega)
              have now := @Collected.put data fed waiting piece _ nowMs here partition
              have regrouped : Partition data (fed ++ [piece] ++ waiting) := by
                rwa [List.append_assoc, List.singleton_append]
              have several := fun piece member => several piece (List.mem_cons_of_mem _ member)
              rw [ownViews, List.flatMap_cons, ← ownViews, if_neg (List.cons_ne_nil _ _)]
              change handled _ ++ ownViews cfg trusted transitions = _
              rw [given]
              cases waiting with
              | nil =>
                  rw [List.append_nil] at regrouped
                  obtain ⟨whole, same⟩ := now.complete regrouped (by
                    rintro rfl
                    rw [List.length_nil] at within
                    exact something (List.eq_nil_of_length_eq_zero (by omega)))
                  rw [if_pos whole, same, @ih (fed ++ [piece]) [] others (by rwa [List.append_nil])
                    several (fun some => absurd rfl some) arrive]
                  rfl
              | cons next waiting =>
                  have unfinished := now.incomplete regrouped
                  rw [unfinished] at found
                  rw [unfinished, @ih (fed ++ [piece]) (next :: waiting) others regrouped several
                    (fun _ => ?_) arrive]
                  · rfl
                  · rw [IpDefrag.datagram, found]
                    exact now

theorem carrier_mem {carriers : List (List UInt8)}
    (arrive : List.Forall₂ (Carries pp headers next id) order carriers)
    (member : carrier ∈ carriers) : ∃ piece ∈ order, Carries pp headers next id piece carrier := by
  induction arrive with
  | nil => cases member
  | cons carries _ ih =>
      rcases List.mem_cons.mp member with rfl | member
      · exact ⟨_, List.mem_cons_self, carries⟩
      · obtain ⟨piece, inside, carries⟩ := ih member
        exact ⟨piece, List.mem_cons_of_mem _ inside, carries⟩

/-- When every fragment gives the transport layer the same number of packets. -/
theorem length_ownViews {count : Nat}
    (each : ∀ carrier ∈ transitions.filterMap (fun transition => transition.event.own),
      ∀ state nowMs, (handled (feedFrame cfg trusted state carrier nowMs).2).length = count) :
    (ownViews cfg trusted transitions).length =
      (transitions.filterMap fun transition => transition.event.own).length * count := by
  induction transitions with
  | nil => exact (Nat.zero_mul _).symm
  | cons transition transitions ih =>
      obtain ⟨before, event, after⟩ := transition
      rw [ownViews, List.flatMap_cons, ← ownViews, List.length_append]
      cases event with
      | fragment carrier nowMs =>
          have here := each carrier List.mem_cons_self before nowMs
          have later := ih fun carrier member => each carrier (List.mem_cons_of_mem _ member)
          rw [later]
          change (handled _).length + _ = (List.length (carrier :: List.filterMap _ _)) * _
          rw [here, List.length_cons, Nat.succ_mul, Nat.add_comm]
      | other frame nowMs =>
          rw [ih each]
          exact Nat.zero_add _
      | tick nowMs =>
          rw [ih each]
          exact Nat.zero_add _

/-- Whatever a frame carries, it comes from where the packet comes from. -/
theorem Whole.parse_source (packet : Whole frame pp headers next data)
    (carries : Carries pp headers next id piece carrier) (something : piece.data ≠ [])
    (several : piece.more = true ∨ 0 < piece.start) :
    ∃ fp, parsePacket carrier = some fp ∧ fp.isArp = false ∧
      (fp.isIpv4 = true ∨ fp.isIpv6 = true) ∧ fp.srcIp = pp.srcIp ∧ fp.isIpv6 = pp.isIpv6 ∧
      (fp.isFragment = true ↔ (pp.isIpv6 = true → headers < maxHops)) := by
  by_cases few : pp.isIpv6 = true → headers < maxHops
  · obtain ⟨fp, parsed, views⟩ := packet.parse_carried carries something several few
    simp only [ParsedPacket.l3View, fragmentView, L3View.mk.injEq] at views
    obtain ⟨noArp, v4, v6, src, -, -, fragment, -⟩ := views
    exact ⟨fp, parsed, noArp, by rw [v4, v6]; exact packet.ip, src, v6,
      iff_of_true fragment few⟩
  · obtain ⟨v6, many⟩ := Classical.not_imp.mp few
    obtain ⟨fp, parsed, fragment, version, noArp, src⟩ :=
      parse_carried_beyond carries something v6 (Nat.not_lt.mp many)
    exact ⟨fp, parsed, noArp, .inr version, src, version.trans v6.symm, by simp [fragment, few]⟩

/-- The ways to cut the data of a packet into fragments. -/
structure Division (data : List UInt8) (parts : List (List UInt8)) : Prop where
  whole : parts.flatten = data
  filled : ∀ part ∈ parts, part ≠ []
  several : 2 ≤ parts.length
  bounded : data.length ≤ maxDatagramLen

theorem Division.several_pieces {parts : List (List UInt8)} (division : Division data parts)
    (member : piece ∈ piecesFrom 0 parts) : piece.more = true ∨ 0 < piece.start := by
  obtain ⟨-, filled, several, -⟩ := division
  cases parts with
  | nil => cases member
  | cons part parts =>
      rcases List.mem_cons.mp member with rfl | member
      · left
        cases parts with
        | nil => exact absurd several (by simp)
        | cons => rfl
      · right
        have onward := piecesFrom_start member
        have := List.length_pos_iff.mpr (filled part List.mem_cons_self)
        omega

theorem length_piecesFrom {parts : List (List UInt8)} {start : Nat} :
    (piecesFrom start parts).length = parts.length := by
  induction parts generalizing start with
  | nil => rfl
  | cons part parts ih => rw [piecesFrom, List.length_cons, List.length_cons, ih]

/-- The fragments of a packet, in any order, give the transport layer what the packet gives it:
always when the source is trusted, and of an IPv4 packet; of an IPv6 packet when its fragments
repeat fewer extension headers than the walk takes and no extension header is cut off with the
data. -/
theorem fragmentation_transparent_iff (packet : Whole frame pp headers next data)
    {parts : List (List UInt8)} (division : Division data parts)
    (run : Execution (frameStep cfg trusted) state transitions later)
    (fresh : state.find (fragmentKey pp next id) = none)
    (undisturbed : ∀ transition ∈ transitions,
      Undisturbed cfg trusted transition.before (fragmentKey pp next id) transition.event)
    (shuffled : order.Perm (piecesFrom 0 parts))
    (arrive : List.Forall₂ (Carries pp headers next id) order
      (transitions.filterMap fun transition => transition.event.own))
    (alone : IpDefrag) (nowMs : UInt64) :
    ownViews cfg trusted transitions = handled (feedFrame cfg trusted alone frame nowMs).2 ↔
      trusted pp.srcIp pp.isIpv6 = true ∨
        (pp.isIpv6 = true → headers < maxHops ∧ isExtension next = false) := by
  have partition : Partition data order :=
    (division.whole ▸ partition_piecesFrom division.filled).perm shuffled
  have several : ∀ piece ∈ order, piece.more = true ∨ 0 < piece.start :=
    fun piece member => division.several_pieces (shuffled.mem_iff.mp member)
  have length : order.length = parts.length := by
    rw [shuffled.length_eq, length_piecesFrom]
  have someLeft : order ≠ [] := by
    rintro rfl
    have := division.several
    simp at length
    omega
  have noArp : pp.isArp = false := by
    obtain ⟨noArp, -⟩ | ⟨noArp, -⟩ := packet.cases
    · exact noArp
    · exact noArp
  have parse : ∀ carrier ∈ transitions.filterMap (fun transition => transition.event.own),
      ∃ fp, parsePacket carrier = some fp ∧ fp.isArp = false ∧
        (fp.isIpv4 = true ∨ fp.isIpv6 = true) ∧ fp.srcIp = pp.srcIp ∧ fp.isIpv6 = pp.isIpv6 ∧
        (fp.isFragment = true ↔ (pp.isIpv6 = true → headers < maxHops)) := by
    intro carrier member
    obtain ⟨piece, inside, carries⟩ := carrier_mem arrive member
    exact packet.parse_source carries (partition.stands piece inside).2 (several piece inside)
  have counted := arrive.length_eq
  rw [feedFrame_of_parse packet.accepted noArp packet.ip, packet.whole]
  cases trust : trusted pp.srcIp pp.isIpv6 with
  | true =>
      refine iff_of_true ?_ (.inl rfl)
      rw [if_pos rfl]
      refine List.eq_nil_of_length_eq_zero ((length_ownViews fun carrier member state nowMs => ?_).trans
        (Nat.mul_zero _))
      obtain ⟨fp, parsed, noArp, ip, src, version, -⟩ := parse carrier member
      rw [feedFrame_of_parse parsed noArp ip, src, version, trust]
      rfl
  | false =>
      rw [if_neg Bool.false_ne_true, if_neg Bool.false_ne_true,
        or_iff_right Bool.false_ne_true]
      change _ = [pp.l4View] ↔ _
      by_cases few : pp.isIpv6 = true → headers < maxHops
      · have views := @ownViews_run _ _ _ _ _ _ id _ _ _ _ [] _ packet few trust division.bounded
          run undisturbed partition several (fun _ => by
            rw [IpDefrag.datagram, fresh]
            exact collected_fresh) arrive
        have something : data ≠ [] := by
          rintro rfl
          obtain ⟨piece, member, _⟩ := partition.ends someLeft
          obtain ⟨stands, something⟩ := partition.stands piece member
          have := stands.end_le something
          have := List.length_pos_iff.mpr something
          rw [List.length_nil] at *
          omega
        rw [views, if_neg someLeft, List.cons.injEq, and_iff_left rfl]
        constructor
        · intro same v6
          refine ⟨few v6, ?_⟩
          rw [← Bool.not_eq_true]
          intro extension
          refine packet.payload_of_extension v6 (few v6) extension something ?_
          have payload := congrArg L4View.payload same
          rw [carriedView_extension extension] at payload
          exact payload.symm
        · intro plain
          exact (packet.l4View plain).symm
      · obtain ⟨v6, many⟩ := Classical.not_imp.mp few
        refine iff_of_false (fun same => ?_) fun plain => many (plain v6).1
        have each : ∀ carrier ∈ transitions.filterMap (fun transition => transition.event.own),
            ∀ state nowMs, (handled (feedFrame cfg trusted state carrier nowMs).2).length = 1 := by
          intro carrier member state nowMs
          obtain ⟨fp, parsed, noArp, ip, src, version, fragment⟩ := parse carrier member
          rw [feedFrame_of_parse parsed noArp ip, src, version, trust, if_neg Bool.false_ne_true,
            if_neg fun set => few (fragment.mp set)]
          rfl
        have lengths := length_ownViews each
        rw [same, List.length_singleton, Nat.mul_one, ← counted, length] at lengths
        have := division.several
        omega

end Runs

section Samples

def ethernet (ethertype : List UInt8) (p : List UInt8) : List UInt8 :=
  List.replicate 12 0 ++ ethertype ++ p

/-- A UDP packet or a fragment of one, by its flags and offset. -/
def ipv4Sample (flags data : List UInt8) : List UInt8 :=
  ethernet [8, 0] ([0x45, 0, 0, 20 + UInt8.ofNat data.length, 0, 7] ++ flags ++
    [64, 17, 0, 0, 10, 0, 0, 1, 10, 0, 0, 2] ++ data)

def ipv6Sample (next : UInt8) (rest : List UInt8) : List UInt8 :=
  ethernet [0x86, 0xDD] ([0x60, 0, 0, 0, 0, UInt8.ofNat rest.length, next, 64] ++
    List.replicate 16 1 ++ List.replicate 16 2 ++ rest)

def udpHeader : List UInt8 := [0, 53, 0, 53, 0, 16, 0, 0]

def udpPayload : List UInt8 := [1, 2, 3, 4, 5, 6, 7, 8]

/-- Destination options with padding, and the UDP header that they announce. -/
def optionsHeader : List UInt8 := [17, 0, 1, 4, 0, 0, 0, 0]

def trustNone : List UInt8 → Bool → Bool := fun _ _ => false

abbrev frameRun (events : List FrameEvent) :
    Option (List (Transition IpDefrag FrameEvent) × IpDefrag) :=
  execute (frameStep .default trustNone) .empty events

def ipv4Events : List FrameEvent :=
  [.fragment (ipv4Sample [0, 1] udpPayload) 0, .tick 9999,
    .fragment (ipv4Sample [0x20, 0] udpHeader) 9999]

def ipv4Trace : List (Transition IpDefrag FrameEvent) × IpDefrag :=
  (frameRun ipv4Events).get (by decide)

def ipv4Whole : ParsedPacket :=
  (parsePacket (ipv4Sample [0, 0] (udpHeader ++ udpPayload))).get (by decide)

theorem fragmentation_transparent_sample :
    ownViews .default trustNone ipv4Trace.1 =
      handled (feedFrame .default trustNone .empty
        (ipv4Sample [0, 0] (udpHeader ++ udpPayload)) 0).2 := by
  have ran : frameRun ipv4Events = some ipv4Trace := (Option.some_get _).symm
  have packet : Whole (ipv4Sample [0, 0] (udpHeader ++ udpPayload)) ipv4Whole 0 17
      (udpHeader ++ udpPayload) :=
    ⟨(Option.some_get _).symm, by decide, by decide, by decide,
      by decide⟩
  have division : Division (udpHeader ++ udpPayload) [udpHeader, udpPayload] :=
    ⟨rfl, by decide, by decide, by decide⟩
  have arrive : List.Forall₂ (Carries ipv4Whole 0 17 7)
      [⟨8, udpPayload, false⟩, ⟨0, udpHeader, true⟩]
      [ipv4Sample [0, 1] udpPayload, ipv4Sample [0x20, 0] udpHeader] := by
    refine .cons ⟨_, rfl, ?_⟩ (.cons ⟨_, rfl, ?_⟩ .nil)
    · constructor <;> decide
    · constructor <;> decide
  exact (fragmentation_transparent_iff packet division (execution_of_execute ran) rfl (by decide)
    (List.Perm.swap _ _ _) arrive .empty 0).mpr (.inr (by decide))

/-- The first piece is the extension header. -/
def ipv6Events : List FrameEvent :=
  [.fragment (ipv6Sample 44 ([60, 0, 0, 1, 0, 0, 0, 7] ++ optionsHeader)) 0,
    .fragment (ipv6Sample 44 ([60, 0, 0, 8, 0, 0, 0, 7] ++ udpHeader)) 0]

def ipv6Trace : List (Transition IpDefrag FrameEvent) × IpDefrag :=
  (frameRun ipv6Events).get (by decide)

def ipv6Whole : ParsedPacket :=
  (parsePacket (ipv6Sample 60 (optionsHeader ++ udpHeader))).get (by decide)

theorem fragmented_options_hide_udp :
    ¬ ∀ (cfg : DefragConfig) (trusted : List UInt8 → Bool → Bool) (frame data : List UInt8)
        (pp : ParsedPacket) (headers : Nat) (next : UInt8) (id : UInt32)
        (parts : List (List UInt8)) (order : List Piece) (state later alone : IpDefrag)
        (transitions : List (Transition IpDefrag FrameEvent)) (nowMs : UInt64),
        Whole frame pp headers next data → Division data parts →
        Execution (frameStep cfg trusted) state transitions later →
        state.find (fragmentKey pp next id) = none →
        (∀ transition ∈ transitions,
          Undisturbed cfg trusted transition.before (fragmentKey pp next id) transition.event) →
        order.Perm (piecesFrom 0 parts) →
        List.Forall₂ (Carries pp headers next id) order
          (transitions.filterMap fun transition => transition.event.own) →
        ownViews cfg trusted transitions =
          handled (feedFrame cfg trusted alone frame nowMs).2 := by
  intro transparent
  have ran : frameRun ipv6Events = some ipv6Trace := (Option.some_get _).symm
  have packet : Whole (ipv6Sample 60 (optionsHeader ++ udpHeader)) ipv6Whole 0 60
      (optionsHeader ++ udpHeader) :=
    ⟨(Option.some_get _).symm, by decide, by decide, by decide,
      by decide⟩
  have division : Division (optionsHeader ++ udpHeader) [optionsHeader, udpHeader] :=
    ⟨rfl, by decide, by decide, by decide⟩
  have arrive : List.Forall₂ (Carries ipv6Whole 0 60 7)
      [⟨0, optionsHeader, true⟩, ⟨8, udpHeader, false⟩]
      [ipv6Sample 44 ([60, 0, 0, 1, 0, 0, 0, 7] ++ optionsHeader),
        ipv6Sample 44 ([60, 0, 0, 8, 0, 0, 0, 7] ++ udpHeader)] := by
    refine .cons ⟨_, 40, rfl, ?_⟩ (.cons ⟨_, 40, rfl, ?_⟩ .nil)
    · constructor <;> decide
    · constructor <;> decide
  have same := transparent _ _ _ _ _ _ _ _ _ _ _ _ .empty _ 0 packet division
    (execution_of_execute ran) rfl (by decide) (List.Perm.refl _) arrive
  exact absurd same (by decide)

end Samples

end Idsm.EthProbe
