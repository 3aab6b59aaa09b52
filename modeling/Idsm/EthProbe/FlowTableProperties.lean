import Idsm.EthProbe.MixedBuffersProperties
import Idsm.EthProbe.StreamShiftProperties

/-! The flow table of the reassembly beside the application state of the pipeline, which is kept
under the same keys. -/

set_option autoImplicit false

namespace Idsm.EthProbe

open Idsm.Foundation

section Tables

variable {cfg : TcpConfig} {state : TcpReassembly} {key other : FlowKey} {flow : TcpFlow}
  {pp : ParsedPacket} {nowMs : UInt64}

def TcpReassembly.tracked (state : TcpReassembly) : List FlowKey := state.flows.map Prod.fst

theorem find_isSome : (state.find key).isSome = true ↔ key ∈ state.tracked := by
  rw [TcpReassembly.find, Option.isSome_map, List.find?_isSome, TcpReassembly.tracked,
    List.mem_map]
  simp only [decide_eq_true_eq]

theorem find_isNone : (state.find key).isNone = true ↔ key ∉ state.tracked := by
  rw [← find_isSome, Option.isNone_iff_eq_none, Option.not_isSome_iff_eq_none]

theorem tracked_eraseFlow :
    (state.eraseFlow key).tracked = state.tracked.filter fun other => other ≠ key := by
  rw [TcpReassembly.tracked, TcpReassembly.tracked, List.filter_map]
  rfl

theorem tracked_setFlow :
    (state.setFlow key flow).tracked = (state.tracked.filter fun other => other ≠ key) ++ [key] := by
  rw [TcpReassembly.tracked, TcpReassembly.tracked, List.filter_map]
  exact List.map_append

theorem mem_tracked_eraseFlow :
    other ∈ (state.eraseFlow key).tracked ↔ other ∈ state.tracked ∧ other ≠ key := by
  rw [tracked_eraseFlow, List.mem_filter, decide_eq_true_eq]

theorem mem_tracked_setFlow :
    other ∈ (state.setFlow key flow).tracked ↔ other = key ∨ other ∈ state.tracked := by
  rw [tracked_setFlow, List.mem_append, List.mem_filter, List.mem_singleton, decide_eq_true_eq]
  by_cases same : other = key
  · simp [same]
  · simp [same]

/-- The recency list holds the tracked flows, each once. -/
structure Recorded (state : TcpReassembly) : Prop where
  once : state.lru.Nodup
  recency : state.lru.Perm state.tracked

theorem Recorded.mem_lru (recorded : Recorded state) : key ∈ state.lru ↔ key ∈ state.tracked :=
  recorded.recency.mem_iff

theorem Recorded.length_flows (recorded : Recorded state) :
    state.flows.length = state.lru.length := by
  rw [recorded.recency.length_eq, TcpReassembly.tracked, List.length_map]

theorem erase_of_once {keys : List FlowKey} (once : keys.Nodup) :
    keys.erase key = keys.filter fun other => other ≠ key := by
  rw [once.erase_eq_filter]
  refine List.filter_congr fun other _ => ?_
  rw [bne, Bool.eq_iff_iff]
  simp

theorem Recorded.erased (recorded : Recorded state) : Recorded (state.eraseFlow key) where
  once := recorded.once.erase key
  recency := by
    rw [tracked_eraseFlow]
    change (state.lru.erase key).Perm _
    rw [erase_of_once recorded.once]
    exact recorded.recency.filter _

theorem Recorded.entered (recorded : Recorded state) :
    Recorded ((state.setFlow key flow).touch key) where
  once := by
    change (state.lru.erase key ++ [key]).Nodup
    refine List.nodup_append.mpr ⟨recorded.once.erase key, by simp, ?_⟩
    intro other member last newest same
    rw [same, List.mem_singleton.mp newest] at member
    exact recorded.once.not_mem_erase member
  recency := by
    change (state.lru.erase key ++ [key]).Perm (state.setFlow key flow).tracked
    rw [tracked_setFlow, erase_of_once recorded.once]
    exact (recorded.recency.filter _).append_right _

/-- A flow that is there takes its new value. -/
theorem Recorded.updated {memUsed : Nat} (recorded : Recorded state)
    (here : key ∈ state.tracked) :
    Recorded { state.setFlow key flow with memUsed := memUsed } where
  once := recorded.once
  recency := by
    have once : state.tracked.Nodup := recorded.recency.nodup_iff.mp recorded.once
    change state.lru.Perm (state.setFlow key flow).tracked
    rw [tracked_setFlow, ← erase_of_once once]
    exact recorded.recency.trans
      ((List.perm_cons_erase here).trans (List.perm_append_singleton _ _).symm)

/-- The flow that has to go before a segment of another one is stored. -/
def evictee (cfg : TcpConfig) (state : TcpReassembly) (key : FlowKey) : Option FlowKey :=
  if (state.find key).isSome ∨ state.flows.length < cfg.maxFlows then none else state.lru.head?

def TcpReassembly.without (state : TcpReassembly) (victim : Option FlowKey) : TcpReassembly :=
  match victim with
  | none => state
  | some victim => state.eraseFlow victim

/-- The table never grows past its limit; a limit of zero still lets one flow in. -/
structure Tabled (cfg : TcpConfig) (state : TcpReassembly) : Prop where
  recorded : Recorded state
  bounded : state.lru.length ≤ max cfg.maxFlows 1

theorem evictee_tracked (recorded : Recorded state) {victim : FlowKey}
    (gone : evictee cfg state key = some victim) : victim ∈ state.tracked ∧ key ∉ state.tracked := by
  unfold evictee at gone
  split at gone
  next => cases gone
  next full =>
    rw [not_or, find_isSome] at full
    exact ⟨recorded.mem_lru.1 (List.mem_of_mem_head? gone), full.1⟩

theorem withRoom_eq (tabled : Tabled cfg state) :
    (withRoom cfg state key).1 = state.without (evictee cfg state key) := by
  have recorded := tabled.recorded
  unfold withRoom evictee
  by_cases known : key ∈ state.tracked
  · rw [if_neg (find_isNone.not.mpr (not_not.mpr known)), if_pos (.inl (find_isSome.2 known))]
    rfl
  · rw [if_pos (find_isNone.2 known)]
    by_cases room : state.flows.length < cfg.maxFlows
    · rw [if_pos (.inr room), makeRoom_of_room room]
      rfl
    · rw [if_neg (not_or.mpr ⟨find_isSome.not.mpr known, room⟩)]
      cases order : state.lru with
      | nil => rfl
      | cons front rest =>
          have other : front ≠ key := by
            rintro rfl
            exact known (recorded.mem_lru.1 (order ▸ List.mem_cons_self))
          rw [List.length_cons, TcpReassembly.makeRoom, order]
          dsimp only
          rw [if_pos ⟨Nat.not_lt.mp room, other⟩]
          have shorter : (state.eraseFlow front).lru = rest := by
            change state.lru.erase front = rest
            rw [order, List.erase_cons_head]
          cases rest with
          | nil => rfl
          | cons next others =>
              have length : (state.eraseFlow front).flows.length = others.length + 1 := by
                rw [recorded.erased.length_flows, shorter, List.length_cons]
              have bounded := tabled.bounded
              rw [order, List.length_cons, List.length_cons] at bounded
              rw [makeRoom_of_room (by omega)]
              rfl

theorem Recorded.without (recorded : Recorded state) (victim : Option FlowKey) :
    Recorded (state.without victim) := by
  cases victim with
  | none => exact recorded
  | some victim => exact recorded.erased

theorem tracked_without (victim : Option FlowKey) :
    other ∈ (state.without victim).tracked ↔ other ∈ state.tracked ∧ victim ≠ some other := by
  cases victim with
  | none =>
      change other ∈ state.tracked ↔ _
      simp
  | some victim =>
      change other ∈ (state.eraseFlow victim).tracked ↔ _
      rw [mem_tracked_eraseFlow, Ne, eq_comm, Ne, Option.some_inj]

/-- There is room for one more flow, unless this one is there. -/
theorem Tabled.length_without (tabled : Tabled cfg state)
    (absent : key ∉ state.tracked) :
    (state.without (evictee cfg state key)).lru.length < max cfg.maxFlows 1 := by
  have bounded := tabled.bounded
  have length := tabled.recorded.length_flows
  unfold evictee
  by_cases room : state.flows.length < cfg.maxFlows
  · rw [if_pos (.inr room)]
    change state.lru.length < _
    omega
  · rw [if_neg (not_or.mpr ⟨find_isSome.not.mpr absent, room⟩)]
    cases order : state.lru with
    | nil =>
        change state.lru.length < _
        rw [order, List.length_nil]
        omega
    | cons front rest =>
        change (state.lru.erase front).length < _
        rw [order] at bounded ⊢
        rw [List.erase_cons_head]
        rw [List.length_cons] at bounded
        omega

theorem Tabled.erased (tabled : Tabled cfg state) : Tabled cfg (state.eraseFlow key) where
  recorded := tabled.recorded.erased
  bounded := (List.length_erase_le).trans tabled.bounded

theorem Tabled.updated {memUsed : Nat} (tabled : Tabled cfg state) (here : key ∈ state.tracked) :
    Tabled cfg { state.setFlow key flow with memUsed := memUsed } where
  recorded := tabled.recorded.updated here
  bounded := tabled.bounded

theorem Recorded.enters (recorded : Recorded state)
    (room : (state.lru.erase key).length < max cfg.maxFlows 1) :
    Tabled cfg ((state.setFlow key flow).touch key) where
  recorded := recorded.entered
  bounded := by
    change (state.lru.erase key ++ [key]).length ≤ _
    rw [List.length_append]
    exact room

section Segment

variable {reverse evicted : Bool}

/-- What a segment leaves of the table, when there is room for its flow. -/
structure Stored (cfg : TcpConfig) (state : TcpReassembly) (key : FlowKey)
    (after : TcpReassembly × DeliverResult) : Prop where
  tabled : Tabled cfg after.1
  flow : after.2.flow = key
  tracked : ∀ other, other ∈ after.1.tracked ↔
    if other = key then after.2.closed = false else other ∈ state.tracked

theorem storeSegment_stored (recorded : Recorded state)
    (room : (state.lru.erase key).length < max cfg.maxFlows 1) :
    Stored cfg state key (storeSegment cfg pp nowMs key reverse flow state evicted) := by
  have tabled : Tabled cfg ((state.setFlow key flow).touch key) := recorded.enters room
  have tracked : ∀ other, other ∈ ((state.setFlow key flow).touch key).tracked ↔
      other = key ∨ other ∈ state.tracked := fun _ => mem_tracked_setFlow
  unfold storeSegment
  dsimp only
  split
  next reset =>
    refine ⟨tabled.erased, rfl, fun other => ?_⟩
    rw [mem_tracked_eraseFlow, tracked]
    split
    next same => simp [same]
    next different => simp [different]
  next =>
    have updated := fun flow memUsed =>
      @Tabled.updated cfg _ key flow memUsed tabled ((tracked key).mpr (.inl rfl))
    split
    next closed =>
      refine ⟨(updated _ _).erased, rfl, fun other => ?_⟩
      rw [mem_tracked_eraseFlow]
      change (other ∈ (TcpReassembly.setFlow _ key _).tracked ∧ _) ↔ _
      rw [mem_tracked_setFlow, tracked]
      dsimp only
      rw [closed]
      split
      next same => simp [same]
      next different => simp [different]
    next going =>
      refine ⟨updated _ _, rfl, fun other => ?_⟩
      change other ∈ (TcpReassembly.setFlow _ key _).tracked ↔ _
      rw [mem_tracked_setFlow, tracked]
      dsimp only
      rw [Bool.not_eq_true] at going
      rw [going]
      split
      next same => simp [same]
      next different => simp [different]

end Segment

theorem addSegment_stored (tabled : Tabled cfg state) (tcp : pp.isTcp = true) :
    Stored cfg (state.without (evictee cfg state pp.flowKey)) pp.flowKey
      (addSegment cfg state pp nowMs) := by
  rw [addSegment_eq (by rw [tcp]; exact Bool.true_eq_false.mp), withRoom_eq tabled]
  refine storeSegment_stored (tabled.recorded.without _) ?_
  by_cases known : pp.flowKey ∈ state.tracked
  · have none : evictee cfg state pp.flowKey = none := if_pos (.inl (find_isSome.2 known))
    rw [none]
    change (state.lru.erase pp.flowKey).length < _
    have there := tabled.recorded.mem_lru.2 known
    rw [List.length_erase_of_mem there]
    have bounded := tabled.bounded
    have filled := List.length_pos_of_mem there
    omega
  · exact (List.length_erase_le).trans_lt (tabled.length_without known)

/-- A flow that a tick takes away. -/
def Idle (cfg : TcpConfig) (nowMs : UInt64) (entry : FlowKey × TcpFlow) : Prop :=
  cfg.idleTimeoutMs ≤ nowMs - entry.2.lastSeenMs

theorem erasing_tabled {idle : List (FlowKey × TcpFlow)} (tabled : Tabled cfg state) :
    Tabled cfg (idle.foldl (fun state entry => state.eraseFlow entry.1) state) ∧
      ∀ other, other ∈ (idle.foldl (fun state entry => state.eraseFlow entry.1) state).tracked ↔
        other ∈ state.tracked ∧ ∀ entry ∈ idle, entry.1 ≠ other := by
  induction idle generalizing state with
  | nil => exact ⟨tabled, fun other => by simp⟩
  | cons entry idle ih =>
      obtain ⟨kept, left⟩ := ih (@Tabled.erased cfg state entry.1 tabled)
      refine ⟨kept, fun other => (left other).trans ?_⟩
      rw [mem_tracked_eraseFlow, List.forall_mem_cons, and_assoc, Ne, eq_comm]

theorem expire_tabled (tabled : Tabled cfg state) :
    Tabled cfg (state.expire cfg.idleTimeoutMs nowMs).1 ∧
      ∀ other, other ∈ (state.expire cfg.idleTimeoutMs nowMs).1.tracked ↔
        other ∈ state.tracked ∧ ∀ entry ∈ state.flows, Idle cfg nowMs entry → entry.1 ≠ other := by
  obtain ⟨kept, left⟩ := @erasing_tabled cfg state
    (state.flows.filter fun entry => cfg.idleTimeoutMs ≤ nowMs - entry.2.lastSeenMs) tabled
  refine ⟨kept, fun other => (left other).trans ?_⟩
  simp only [List.mem_filter, decide_eq_true_eq, and_imp, Idle]

end Tables

section Pipeline

variable {probe : Probe} {monitor : Monitor} {tcp : TcpState} {keys : List FlowKey}
  {pp : ParsedPacket} {nowMs : UInt64}

/-- What the entries of `flows_` are, under the keys that it has. -/
structure Consistent (tcp : TcpState) (keys : List FlowKey) : Prop where
  tracked : ∀ key ∈ keys, key ∈ tcp.tcp.tracked
  fresh : ∀ key, key ∉ tcp.tcp.tracked → ∀ reverse, tcp.flows key reverse = .fresh

/-- It holds in every run. -/
structure Sound (cfg : TcpConfig) (tcp : TcpState) (keys : List FlowKey) : Prop where
  tabled : Tabled cfg tcp.tcp
  entered : ∀ key, key ∉ keys → ∀ reverse, tcp.flows key reverse = .fresh

theorem Sound.consistent_iff (sound : Sound probe.tcp tcp keys) :
    Consistent tcp keys ↔ ∀ key ∈ keys, key ∈ tcp.tcp.tracked :=
  ⟨Consistent.tracked, fun tracked =>
    ⟨tracked, fun key gone => sound.entered key fun member => gone (tracked key member)⟩⟩

theorem handleTcp_tcp :
    (probe.handleTcp tcp pp nowMs).1.tcp = (addSegment probe.tcp tcp.tcp pp nowMs).1 := by
  unfold Probe.handleTcp
  dsimp only
  split_ifs <;> rfl

theorem mem_flowKeys {key : FlowKey} :
    key ∈ probe.flowKeys tcp pp nowMs keys ↔
      let res := (addSegment probe.tcp tcp.tcp pp nowMs).2
      (key ∈ keys ∨ key = res.flow ∧ res.hasData = true ∧ res.data ≠ []) ∧
        (res.closed = true → key ≠ res.flow) := by
  unfold Probe.flowKeys
  dsimp only
  split_ifs with closed delivered delivered
  · simp [closed, delivered, List.mem_insert_iff, or_comm]
  · simp [closed, delivered]
  · simp [closed, delivered, List.mem_insert_iff, or_comm]
  · simp [closed, delivered]

/-- Only the directions of flows that have entries are not fresh. -/
theorem handleTcp_entered
    (entered : ∀ key, key ∉ keys → ∀ reverse, tcp.flows key reverse = .fresh) :
    ∀ key, key ∉ probe.flowKeys tcp pp nowMs keys → ∀ reverse,
      (probe.handleTcp tcp pp nowMs).1.flows key reverse = .fresh := by
  intro key gone reverse
  rw [mem_flowKeys] at gone
  unfold Probe.handleTcp
  dsimp only at gone ⊢
  by_cases here : key = (addSegment probe.tcp tcp.tcp pp nowMs).2.flow
  · split
    next => exact if_pos here
    next going =>
      obtain ⟨unknown, undelivered⟩ := not_or.mp fun known => gone ⟨known, fun ended => (going ended).elim⟩
      rw [if_neg fun delivered => undelivered ⟨here, delivered⟩]
      exact entered key unknown reverse
  · have unknown : key ∉ keys := fun known => gone ⟨.inl known, fun _ => here⟩
    split
    next =>
      refine (if_neg here).trans ?_
      split
      next => exact (if_neg fun same => here same.1).trans (entered key unknown reverse)
      next => exact entered key unknown reverse
    next =>
      split
      next => exact (if_neg fun same => here same.1).trans (entered key unknown reverse)
      next => exact entered key unknown reverse

/-- No flow with an entry is evicted for the packet's. -/
def SparesFlows (probe : Probe) (tcp : TcpState) (keys : List FlowKey) (pp : ParsedPacket) : Prop :=
  ∀ victim, evictee probe.tcp tcp.tcp pp.flowKey = some victim → victim ∉ keys

theorem handleTcp_sound (sound : Sound probe.tcp tcp keys) (segment : pp.isTcp = true) :
    Sound probe.tcp (probe.handleTcp tcp pp nowMs).1 (probe.flowKeys tcp pp nowMs keys) where
  tabled := by
    rw [handleTcp_tcp]
    exact (addSegment_stored sound.tabled segment).tabled
  entered := handleTcp_entered sound.entered

theorem handleTcp_consistent_iff (sound : Sound probe.tcp tcp keys)
    (consistent : Consistent tcp keys) (segment : pp.isTcp = true) :
    Consistent (probe.handleTcp tcp pp nowMs).1 (probe.flowKeys tcp pp nowMs keys) ↔
      SparesFlows probe tcp keys pp := by
  have stored := @addSegment_stored probe.tcp tcp.tcp pp nowMs sound.tabled segment
  rw [(handleTcp_sound sound segment).consistent_iff]
  simp only [mem_flowKeys, handleTcp_tcp, stored.flow, stored.tracked, tracked_without]
  constructor
  · intro kept victim gone entered
    obtain ⟨tracked, unknown⟩ := evictee_tracked sound.tabled.recorded gone
    have other : victim ≠ pp.flowKey := fun same => unknown (same ▸ tracked)
    have left := kept victim ⟨.inl entered, fun _ => other⟩
    rw [if_neg other] at left
    exact left.2 gone
  · rintro spares key ⟨known, going⟩
    split
    next same =>
      rw [Bool.eq_false_iff]
      exact fun closed => going closed same
    next other =>
      have before := known.resolve_right fun delivered => other delivered.1
      exact ⟨consistent.tracked key before, fun gone => spares key gone before⟩

/-- The packet that the calls of a frame hand to the transport layer. -/
inductive OnePacket : List FrameCall → Option ParsedPacket → Prop where
  | none : OnePacket [] none
  | packet (pp : ParsedPacket) : OnePacket [.handleL4 pp] (some pp)
  | alert {calls : List FrameCall} {packet : Option ParsedPacket} (pp : ParsedPacket)
      (aux : UInt32) (later : OnePacket calls packet) :
      OnePacket (.reassemblyAlert pp aux :: calls) packet

theorem feedFrame_onePacket (defrag : IpDefrag) (data : List UInt8) :
    ∃ packet, OnePacket (feedFrame monitor.defrag monitor.trusted defrag data nowMs).2 packet := by
  unfold feedFrame
  cases parsePacket data with
  | none => exact ⟨none, .none⟩
  | some pp =>
      dsimp only
      split_ifs
      · exact ⟨none, .none⟩
      · exact ⟨none, .none⟩
      · exact ⟨none, .none⟩
      · unfold handleFragment
        split
        next => exact ⟨none, .none⟩
        next =>
          dsimp only
          split_ifs
          · exact ⟨_, .alert _ _ (.packet _)⟩
          · exact ⟨_, .alert _ _ .none⟩
          · exact ⟨_, .packet _⟩
          · exact ⟨_, .none⟩
      · exact ⟨_, .packet _⟩

/-- A TCP packet among the calls. -/
def TcpCall (calls : List FrameCall) (pp : ParsedPacket) : Prop :=
  .handleL4 pp ∈ calls ∧ pp.isTcp = true

theorem tcpCall_alert {calls : List FrameCall} {other : ParsedPacket} {aux : UInt32} :
    TcpCall (.reassemblyAlert other aux :: calls) pp ↔ TcpCall calls pp := by
  unfold TcpCall
  rw [List.mem_cons, or_iff_right FrameCall.noConfusion]

theorem tcpCall_packet {other : ParsedPacket} :
    TcpCall [.handleL4 other] pp ↔ pp = other ∧ pp.isTcp = true := by
  unfold TcpCall
  rw [List.mem_singleton, FrameCall.handleL4.injEq]

theorem handleL4_other {state : MonitorState} (other : pp.isTcp = false) :
    (monitor.handleL4 state pp nowMs).1.tcp = state.tcp := by
  unfold Monitor.handleL4
  rw [other, if_neg Bool.false_ne_true]
  split_ifs <;> rfl

theorem handleL4_tcp {state : MonitorState} (segment : pp.isTcp = true) :
    (monitor.handleL4 state pp nowMs).1.tcp =
      (monitor.probe.handleTcp state.tcp pp nowMs).1 := by
  unfold Monitor.handleL4
  rw [segment, if_pos rfl]

/-- What the calls of a frame do to both tables. -/
theorem perform_tables {calls : List FrameCall} {packet : Option ParsedPacket}
    (one : OnePacket calls packet) {state : MonitorState}
    (sound : Sound monitor.probe.tcp state.tcp keys) (consistent : Consistent state.tcp keys) :
    Sound monitor.probe.tcp (monitor.perform nowMs state calls).1.tcp
        (monitor.performKeys nowMs state keys calls) ∧
      (Consistent (monitor.perform nowMs state calls).1.tcp
          (monitor.performKeys nowMs state keys calls) ↔
        ∀ pp, TcpCall calls pp → SparesFlows monitor.probe state.tcp keys pp) := by
  induction one with
  | none => exact ⟨sound, iff_of_true consistent fun pp call => nomatch call.1⟩
  | alert pp aux later ih =>
      refine ⟨ih.1, ih.2.trans ?_⟩
      simp only [tcpCall_alert]
  | packet pp =>
      change Sound _ (monitor.handleL4 state pp nowMs).1.tcp (if pp.isTcp then _ else keys) ∧
        (Consistent (monitor.handleL4 state pp nowMs).1.tcp (if pp.isTcp then _ else keys) ↔ _)
      cases segment : pp.isTcp with
      | false =>
          rw [handleL4_other segment, if_neg Bool.false_ne_true]
          refine ⟨sound, iff_of_true consistent ?_⟩
          rintro other call
          obtain ⟨rfl, set⟩ := tcpCall_packet.1 call
          rw [segment] at set
          cases set
      | true =>
          rw [handleL4_tcp segment, if_pos rfl]
          refine ⟨handleTcp_sound sound segment, ?_⟩
          rw [handleTcp_consistent_iff sound consistent segment]
          constructor
          · rintro spares other call
            obtain ⟨rfl, -⟩ := tcpCall_packet.1 call
            exact spares
          · exact fun spares => spares pp (tcpCall_packet.2 ⟨rfl, segment⟩)

/-- No step takes a flow away that has an entry, but by its close. -/
def KeepsEntries (monitor : Monitor) (keyed : KeyedState) : MonitorEvent → Prop
  | .frame data nowMs => ∀ pp,
      TcpCall (feedFrame monitor.defrag monitor.trusted keyed.state.defrag data nowMs).2 pp →
        SparesFlows monitor.probe keyed.state.tcp keyed.keys pp
  | .tick nowMs => ∀ entry ∈ keyed.state.tcp.tcp.flows,
      Idle monitor.probe.tcp nowMs entry → entry.1 ∉ keyed.keys

abbrev KeyedState.Sound (monitor : Monitor) (keyed : KeyedState) : Prop :=
  EthProbe.Sound monitor.probe.tcp keyed.state.tcp keyed.keys

/-- The two tables are in step. -/
abbrev KeyedState.Consistent (keyed : KeyedState) : Prop :=
  EthProbe.Consistent keyed.state.tcp keyed.keys

theorem keyedStep_tables {keyed later : KeyedState} {event : MonitorEvent}
    (sound : keyed.Sound monitor) (consistent : keyed.Consistent)
    (here : monitor.keyedStep keyed event = some later) :
    later.Sound monitor ∧ (later.Consistent ↔ KeepsEntries monitor keyed event) := by
  cases event with
  | frame data nowMs =>
      obtain rfl := Option.some.inj here
      obtain ⟨packet, one⟩ := @feedFrame_onePacket monitor nowMs keyed.state.defrag data
      exact perform_tables one sound consistent
  | tick nowMs =>
      obtain rfl := Option.some.inj here
      obtain ⟨tabled, left⟩ := @expire_tabled _ _ nowMs sound.tabled
      have after : EthProbe.Sound monitor.probe.tcp (monitor.tick keyed.state nowMs).tcp
          keyed.keys := ⟨tabled, sound.entered⟩
      refine ⟨after, after.consistent_iff.trans ?_⟩
      constructor
      · intro kept entry member idle known
        exact ((left entry.1).mp (kept entry.1 known)).2 entry member idle rfl
      · intro spared key known
        refine (left key).mpr ⟨consistent.tracked key known, fun entry member idle same => ?_⟩
        exact spared entry member idle (same ▸ known)

def KeyedState.initial : KeyedState := ⟨.initial, []⟩

theorem initial_sound : KeyedState.initial.Sound monitor where
  tabled := ⟨⟨List.nodup_nil, .nil⟩, Nat.zero_le _⟩
  entered _ _ _ := rfl

theorem initial_consistent : KeyedState.initial.Consistent where
  tracked _ known := nomatch known
  fresh _ _ _ := rfl

/-- The tables are in step throughout a run, exactly when no step of it evicts or expires a flow
that has an entry. -/
theorem flow_tables_consistent_iff {last : KeyedState}
    {transitions : List (Transition KeyedState MonitorEvent)}
    (run : Execution monitor.keyedStep .initial transitions last) :
    (∀ transition ∈ transitions, transition.after.Consistent) ↔
      ∀ transition ∈ transitions, KeepsEntries monitor transition.before transition.event := by
  suffices from_state : ∀ {start : KeyedState}, Execution monitor.keyedStep start transitions last →
      start.Sound monitor → start.Consistent →
        ((∀ transition ∈ transitions, transition.after.Consistent) ↔
          ∀ transition ∈ transitions, KeepsEntries monitor transition.before transition.event) from
    from_state run initial_sound initial_consistent
  intro start run
  clear * - run
  induction run with
  | stop state =>
      intro _ _
      exact iff_of_true (List.forall_mem_nil _) (List.forall_mem_nil _)
  | @next state middle ended event steps here later ih =>
      intro sound consistent
      obtain ⟨after, in_step⟩ := keyedStep_tables sound consistent here
      rw [List.forall_mem_cons, List.forall_mem_cons]
      constructor
      · rintro ⟨first, others⟩
        exact ⟨in_step.mp first, (ih after first).mp others⟩
      · rintro ⟨first, others⟩
        have still := in_step.mpr first
        exact ⟨still, (ih after still).mpr others⟩

end Pipeline

section Samples

abbrev keyedRun (events : List MonitorEvent) :
    Option (List (Transition KeyedState MonitorEvent) × KeyedState) :=
  execute mixedMonitor.keyedStep .initial events

def idleTrace : List (Transition KeyedState MonitorEvent) × KeyedState :=
  (keyedRun [.frame (requestFrame [97]) 0, .tick 120000]).get (by decide)

theorem idleTrace_execution :
    Execution mixedMonitor.keyedStep .initial idleTrace.1 idleTrace.2 := by
  have ran : keyedRun [.frame (requestFrame [97]) 0, .tick 120000] = some idleTrace :=
    (Option.some_get _).symm
  exact execution_of_execute ran

theorem flow_tables_consistent_sample :
    (∀ transition ∈ idleTrace.1, transition.after.Consistent) ↔
      ∀ transition ∈ idleTrace.1,
        KeepsEntries mixedMonitor transition.before transition.event :=
  flow_tables_consistent_iff idleTrace_execution

/-- The tick drops the flow, and its entry stays. -/
theorem expired_flow_keeps_entry :
    ¬ ∀ (monitor : Monitor) (last : KeyedState)
        (transitions : List (Transition KeyedState MonitorEvent)),
        Execution monitor.keyedStep .initial transitions last →
          ∀ transition ∈ transitions, transition.after.Consistent := by
  intro consistent
  have after : ∀ transition ∈ idleTrace.1, ∀ key ∈ transition.after.keys,
      key ∈ transition.after.state.tcp.tcp.tracked := fun transition member =>
    (consistent _ _ _ idleTrace_execution transition member).tracked
  exact absurd after (by decide)

end Samples

end Idsm.EthProbe
