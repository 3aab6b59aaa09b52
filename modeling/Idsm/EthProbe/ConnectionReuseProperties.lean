import Idsm.EthProbe.StreamShiftProperties

/-! Two connections one after the other on the same addresses and ports: what an entry that late
packets of the first one left does to the second. -/

set_option autoImplicit false

namespace Idsm.EthProbe

open Idsm.Foundation

inductive TcpEvent where
  | segment (packet : ParsedPacket) (nowMs : UInt64)
  | expire (nowMs : UInt64)

/-- One direction of a pair of addresses and ports. -/
structure Side where
  flow : FlowKey
  reverse : Bool

def Side.sees (side : Side) (pp : ParsedPacket) : Bool :=
  pp.isTcp && decide (pp.flowKey = side.flow) && decide ((!pp.forward) = side.reverse)

/-- How far the sender of a direction is: acknowledgements of the connection that ended, then the
second connection with its next number and whether it sent a payload, then its end. -/
inductive Sender where
  | late
  | connected (next : UInt32) (begun : Bool)
  | finished
  deriving DecidableEq, Repr

/-- The sender behind a packet, if this is one that it sends now. Payloads are shorter than half
of the number space. -/
def Sender.send (sender : Sender) (pp : ParsedPacket) : Option Sender :=
  match sender with
  | .late =>
      if pp.payload ≠ [] then none
      else if hasFlag pp.tcpFlags tcpSyn = false then some .late
      else if hasFlag pp.tcpFlags tcpFin ∨ hasFlag pp.tcpFlags tcpRst then none
      else some (.connected (pp.tcpSeq + 1) false)
  | .connected next begun =>
      if hasFlag pp.tcpFlags tcpSyn ∨ hasFlag pp.tcpFlags tcpRst ∨ pp.tcpSeq ≠ next ∨
          2 ^ 31 ≤ pp.payload.length then none
      else if hasFlag pp.tcpFlags tcpFin then some .finished
      else some (.connected (segEnd next pp.payload) (begun || !pp.payload.isEmpty))
  | .finished =>
      if pp.payload ≠ [] ∨ hasFlag pp.tcpFlags tcpSyn then none else some .finished

structure Reuse where
  tcp : TcpReassembly
  sender : Sender

/-- The direction's packets come as its sender sends them; all other traffic is free. -/
def reuseStep (cfg : TcpConfig) (side : Side) (reuse : Reuse) : TcpEvent → Option Reuse
  | .segment packet nowMs =>
      let tcp := (addSegment cfg reuse.tcp packet nowMs).1
      if side.sees packet then (reuse.sender.send packet).map (Reuse.mk tcp)
      else some ⟨tcp, reuse.sender⟩
  | .expire nowMs => some ⟨(reuse.tcp.expire cfg.idleTimeoutMs nowMs).1, reuse.sender⟩

def Side.direction (side : Side) (state : TcpReassembly) : Direction :=
  directionFor state side.flow side.reverse

/-- The second connection has not sent a payload yet. -/
def Sender.unbegun : Sender → Bool
  | .late => false
  | .connected _ begun => !begun
  | .finished => false

/-- The first payload of the second connection meets an entry that has not started, or one that
waits for its number. -/
def MeetsStart (side : Side) (reuse : Reuse) : TcpEvent → Prop
  | .segment packet _ => side.sees packet = true → reuse.sender.unbegun = true →
      packet.payload ≠ [] →
        (side.direction reuse.tcp).initialized = false ∨
          (side.direction reuse.tcp).nextSeq = packet.tcpSeq
  | .expire _ => True

/-- A packet of the direction delivers its payload when it comes. -/
def DeliversPayload (cfg : TcpConfig) (side : Side) (reuse : Reuse) : TcpEvent → Prop
  | .segment packet nowMs => side.sees packet = true →
      (addSegment cfg reuse.tcp packet nowMs).2.data = packet.payload ∧
        ((addSegment cfg reuse.tcp packet nowMs).2.hasData = true ↔ packet.payload ≠ [])
  | .expire _ => True

section Segment

variable {cfg : TcpConfig} {pp : ParsedPacket} {nowMs : UInt64} {d : Direction} {memUsed : Nat}

/-- A packet without payload changes nothing but the start and the end of its direction. -/
theorem segmentProgress_of_empty (empty : pp.payload = []) :
    (segmentProgress cfg pp nowMs d memUsed).data = [] ∧
      (segmentProgress cfg pp nowMs d memUsed).hasData = false ∧
      (segmentProgress cfg pp nowMs d memUsed).direction =
        finDirection pp.tcpFlags (initDirection pp.tcpSeq pp.tcpFlags d) := by
  unfold segmentProgress addData
  rw [if_pos empty]
  exact ⟨rfl, rfl, rfl⟩

theorem initDirection_ooo {seq : UInt32} {flags : UInt8} : (initDirection seq flags d).ooo = d.ooo := by
  unfold initDirection
  split <;> rfl

theorem finDirection_ooo {flags : UInt8} : (finDirection flags d).ooo = d.ooo := by
  unfold finDirection
  split <;> rfl

/-- Nothing is buffered, and the direction waits for the number, if for any. -/
structure Ready (next : UInt32) (d : Direction) : Prop where
  nothing_held : d.ooo = []
  waits : d.initialized = false ∨ d.nextSeq = next

/-- The segment that a direction waits for is delivered. -/
theorem placeSegment_next {seq : UInt32} {data : List UInt8} {progress : Progress}
    (awaited : progress.direction.nextSeq = seq) (short : data.length < 2 ^ 31)
    (filled : data ≠ []) : placeSegment cfg seq data nowMs progress = deliver data progress := by
  have begins : seq = serial seq 0 := (UInt32.add_zero seq).symm
  have ends : segEnd seq data = serial seq data.length := rfl
  have ahead : ¬ seqLeq (segEnd seq data) seq = true := by
    rw [ends]
    nth_rewrite 2 [begins]
    rw [seqLeq_serial seq (by omega) (by omega), Nat.le_zero, List.length_eq_zero_iff]
    exact filled
  have level : ¬ seqLt seq seq = true := by
    rw [begins, seqLt_serial seq (by omega) (by omega)]
    exact Nat.lt_irrefl 0
  unfold placeSegment
  dsimp only
  rw [awaited, if_neg ahead, if_neg level, if_pos rfl]

theorem initDirection_ready (ready : Ready pp.tcpSeq d)
    (noSyn : hasFlag pp.tcpFlags tcpSyn = false) :
    (initDirection pp.tcpSeq pp.tcpFlags d).nextSeq = pp.tcpSeq := by
  unfold initDirection
  rcases ready.waits with fresh | awaited
  · rw [fresh, if_neg Bool.false_ne_true, noSyn, if_neg Bool.false_ne_true]
    exact UInt32.add_zero _
  · split
    next => exact awaited
    next =>
      rw [noSyn, if_neg Bool.false_ne_true]
      exact UInt32.add_zero _

theorem segmentProgress_of_ready (ready : Ready pp.tcpSeq d)
    (noSyn : hasFlag pp.tcpFlags tcpSyn = false) (short : pp.payload.length < 2 ^ 31)
    (filled : pp.payload ≠ []) :
    (segmentProgress cfg pp nowMs d memUsed).data = pp.payload ∧
      (segmentProgress cfg pp nowMs d memUsed).hasData = true ∧
      (segmentProgress cfg pp nowMs d memUsed).direction =
        finDirection pp.tcpFlags
          { initDirection pp.tcpSeq pp.tcpFlags d with nextSeq := segEnd pp.tcpSeq pp.payload } := by
  have awaited := initDirection_ready ready noSyn
  have held : (initDirection pp.tcpSeq pp.tcpFlags d).ooo = [] :=
    initDirection_ooo.trans ready.nothing_held
  unfold segmentProgress addData
  rw [if_neg filled]
  dsimp only
  rw [placeSegment_next awaited short filled]
  have delivered : (deliver pp.payload
      (.start (initDirection pp.tcpSeq pp.tcpFlags d) memUsed)).direction =
        { initDirection pp.tcpSeq pp.tcpFlags d with nextSeq := segEnd pp.tcpSeq pp.payload } :=
    congrArg (fun next => { initDirection pp.tcpSeq pp.tcpFlags d with
      nextSeq := segEnd next pp.payload }) awaited
  have skipped : skipGap cfg nowMs
      { initDirection pp.tcpSeq pp.tcpFlags d with nextSeq := segEnd pp.tcpSeq pp.payload } =
        { initDirection pp.tcpSeq pp.tcpFlags d with nextSeq := segEnd pp.tcpSeq pp.payload } :=
    skipGap_of_closed fun first member => by
      rw [held] at member
      cases member
  rw [delivered, skipped]
  unfold drainSegments
  dsimp only
  rw [if_pos held]
  exact ⟨rfl, rfl, rfl⟩

end Segment

section Flows

variable {cfg : TcpConfig} {state after : TcpReassembly} {key other : FlowKey} {pp : ParsedPacket}
  {nowMs : UInt64} {side : Side}

theorem find_makeRoom_other {maxFlows fuel : Nat} :
    (TcpReassembly.makeRoom maxFlows key fuel state).1.find other = state.find other ∨
      (TcpReassembly.makeRoom maxFlows key fuel state).1.find other = none := by
  induction fuel generalizing state with
  | zero => exact .inl rfl
  | succ fuel ih =>
      rw [TcpReassembly.makeRoom]
      cases state.lru with
      | nil => exact .inl rfl
      | cons front rest =>
          dsimp only
          split
          next =>
            rcases ih with same | gone
            · rw [find_eraseFlow] at same
              split at same
              next => exact .inr same
              next => exact .inl same
            · exact .inr gone
          next => exact .inl rfl

theorem find_withRoom_other :
    (withRoom cfg state key).1.find other = state.find other ∨
      (withRoom cfg state key).1.find other = none := by
  unfold withRoom
  split
  next => exact find_makeRoom_other
  next => exact .inl rfl

/-- The entry is as it was, or it is gone. -/
def Side.Kept (side : Side) (state after : TcpReassembly) : Prop :=
  side.direction after = side.direction state ∨ side.direction after = .fresh

theorem Side.kept_of_find
    (found : after.find side.flow = state.find side.flow ∨ after.find side.flow = none) :
    side.Kept state after := by
  unfold Side.Kept Side.direction directionFor
  rcases found with same | gone
  · rw [same]
    exact .inl rfl
  · rw [gone]
    exact .inr rfl

theorem sees_iff : side.sees pp = true ↔
    pp.isTcp = true ∧ pp.flowKey = side.flow ∧ (!pp.forward) = side.reverse := by
  rw [Side.sees, Bool.and_eq_true, Bool.and_eq_true, decide_eq_true_eq, decide_eq_true_eq,
    and_assoc]

section Store

variable {reverse evicted : Bool} {flow : TcpFlow}

theorem find_storeSegment_other (apart : key ≠ other) :
    (storeSegment cfg pp nowMs key reverse flow state evicted).1.find other = state.find other := by
  have touched : ((state.setFlow key flow).touch key).find other = state.find other := by
    rw [find_touch, find_setFlow, if_neg apart]
  unfold storeSegment
  dsimp only
  split
  next => rw [find_eraseFlow, if_neg apart, touched]
  next =>
    split
    next =>
      rw [find_eraseFlow, if_neg apart]
      exact (find_setFlow _).trans ((if_neg apart).trans touched)
    next => exact (find_setFlow _).trans ((if_neg apart).trans touched)

/-- What a segment does to its flow: it resets it, or goes through its direction. -/
inductive StoreOutcome (cfg : TcpConfig) (pp : ParsedPacket) (nowMs : UInt64) (key : FlowKey)
    (reverse : Bool) (flow : TcpFlow) (stored : TcpReassembly × DeliverResult) : Prop where
  | reset (flag : hasFlag pp.tcpFlags tcpRst = true) (gone : stored.1.find key = none)
      (nothing : stored.2.data = [] ∧ stored.2.hasData = false)
  | progressed (memUsed : Nat)
      (found : stored.1.find key = some (flow.setDir reverse
          (segmentProgress cfg pp nowMs (flow.dir reverse) memUsed).direction) ∨
        stored.1.find key = none)
      (data : stored.2.data = (segmentProgress cfg pp nowMs (flow.dir reverse) memUsed).data)
      (hasData : stored.2.hasData =
        (segmentProgress cfg pp nowMs (flow.dir reverse) memUsed).hasData)

theorem storeSegment_outcome :
    StoreOutcome cfg pp nowMs key reverse flow
      (storeSegment cfg pp nowMs key reverse flow state evicted) := by
  unfold storeSegment
  dsimp only
  split
  next flag =>
    refine .reset flag ?_ ⟨rfl, rfl⟩
    rw [find_eraseFlow, if_pos rfl]
  next =>
    refine .progressed _ ?_ rfl rfl
    split
    next =>
      refine .inr ?_
      rw [find_eraseFlow, if_pos rfl]
    next =>
      refine .inl ?_
      exact (find_setFlow _).trans (if_pos rfl)

end Store

/-- A packet of another flow or direction. -/
theorem addSegment_kept (unseen : side.sees pp = false) :
    side.Kept state (addSegment cfg state pp nowMs).1 := by
  by_cases tcp : pp.isTcp = false
  · rw [addSegment_of_not_tcp tcp]
    exact .inl rfl
  rw [addSegment_eq tcp]
  by_cases same : pp.flowKey = side.flow
  · have across : side.reverse ≠ !pp.forward := by
      intro equal
      rw [Bool.eq_false_iff, Ne, sees_iff] at unseen
      exact unseen ⟨eq_true_of_ne_false tcp, same, equal.symm⟩
    rw [same, find_withRoom]
    have outcome := @storeSegment_outcome cfg (withRoom cfg state side.flow).1 side.flow pp nowMs
      (!pp.forward) (withRoom cfg state side.flow).2
      { (state.find side.flow).getD .fresh with lastSeenMs := nowMs }
    unfold Side.Kept Side.direction directionFor
    cases outcome with
    | reset flag gone nothing =>
        rw [gone]
        exact .inr rfl
    | progressed memUsed found data hasData =>
        rcases found with found | gone
        · rw [found]
          exact .inl (setDir_other _ _ across)
        · rw [gone]
          exact .inr rfl
  · refine side.kept_of_find ?_
    rw [find_storeSegment_other same]
    exact find_withRoom_other

theorem expire_kept : side.Kept state (state.expire cfg.idleTimeoutMs nowMs).1 := by
  refine side.kept_of_find ?_
  unfold TcpReassembly.expire
  rcases @find_expired state side.flow
    (state.flows.filter fun entry => cfg.idleTimeoutMs ≤ nowMs - entry.2.lastSeenMs) with
    same | ⟨_, gone⟩
  · exact .inl same
  · exact .inr gone

/-- A packet of the direction, and what it finds there. -/
inductive SeenOutcome (cfg : TcpConfig) (side : Side) (state : TcpReassembly) (pp : ParsedPacket)
    (nowMs : UInt64) : Prop where
  | reset (flag : hasFlag pp.tcpFlags tcpRst = true)
      (gone : side.direction (addSegment cfg state pp nowMs).1 = .fresh)
      (nothing : (addSegment cfg state pp nowMs).2.data = [] ∧
        (addSegment cfg state pp nowMs).2.hasData = false)
  | progressed (memUsed : Nat)
      (found : side.direction (addSegment cfg state pp nowMs).1 =
          (segmentProgress cfg pp nowMs (side.direction state) memUsed).direction ∨
        side.direction (addSegment cfg state pp nowMs).1 = .fresh)
      (data : (addSegment cfg state pp nowMs).2.data =
        (segmentProgress cfg pp nowMs (side.direction state) memUsed).data)
      (hasData : (addSegment cfg state pp nowMs).2.hasData =
        (segmentProgress cfg pp nowMs (side.direction state) memUsed).hasData)

theorem addSegment_seen (seen : side.sees pp = true) : SeenOutcome cfg side state pp nowMs := by
  obtain ⟨tcp, same, across⟩ := sees_iff.1 seen
  have split : addSegment cfg state pp nowMs =
      storeSegment cfg pp nowMs side.flow side.reverse
        { (state.find side.flow).getD .fresh with lastSeenMs := nowMs }
        (withRoom cfg state side.flow).1 (withRoom cfg state side.flow).2 := by
    rw [addSegment_eq (by rw [tcp]; exact Bool.true_eq_false.mp), same, across, find_withRoom]
  have gone : ∀ {stored : TcpReassembly}, stored.find side.flow = none →
      side.direction stored = .fresh := by
    intro stored absent
    unfold Side.direction directionFor
    rw [absent]
    rfl
  have outcome := @storeSegment_outcome cfg (withRoom cfg state side.flow).1 side.flow pp nowMs
    side.reverse (withRoom cfg state side.flow).2
    { (state.find side.flow).getD .fresh with lastSeenMs := nowMs }
  rw [← split] at outcome
  cases outcome with
  | reset flag absent nothing => exact .reset flag (gone absent) nothing
  | progressed memUsed found data hasData =>
      refine .progressed memUsed ?_ data hasData
      rcases found with found | absent
      · refine .inl ?_
        unfold Side.direction directionFor
        rw [found]
        exact setDir_dir _ _
      · exact .inr (gone absent)

/-- A packet that closes a flow leaves no entry. -/
theorem find_of_closed (closed : (addSegment cfg state pp nowMs).2.closed = true)
    (same : (addSegment cfg state pp nowMs).2.flow = key) :
    (addSegment cfg state pp nowMs).1.find key = none := by
  by_cases tcp : pp.isTcp = false
  · rw [addSegment_of_not_tcp tcp] at closed
    cases closed
  · rw [addSegment_eq tcp] at closed same ⊢
    unfold storeSegment at closed same ⊢
    dsimp only at closed same ⊢
    split at closed
    next reset =>
      rw [if_pos reset] at same ⊢
      rw [find_eraseFlow, if_pos same]
    next going =>
      rw [if_neg going] at same ⊢
      rw [if_pos closed, find_eraseFlow, if_pos same]

end Flows

section Reuse

variable {cfg : TcpConfig} {side : Side} {state after : TcpReassembly} {sender sent : Sender}
  {pp : ParsedPacket} {nowMs : UInt64} {next : UInt32} {begun : Bool}

/-- What the sender's progress says about the entry. -/
def Settled (d : Direction) : Sender → Prop
  | .late => d.ooo = []
  | .connected next begun => d.ooo = [] ∧ (begun = true → Ready next d)
  | .finished => True

theorem settled_fresh : Settled .fresh sender := by
  cases sender with
  | late => rfl
  | connected next begun => exact ⟨rfl, fun _ => ⟨rfl, .inl rfl⟩⟩
  | finished => trivial

theorem Settled.of_kept (settled : Settled (side.direction state) sender)
    (kept : side.Kept state after) : Settled (side.direction after) sender := by
  rcases kept with same | fresh
  · rw [same]
    exact settled
  · rw [fresh]
    exact settled_fresh

/-- A packet of a connected sender. -/
structure InOrder (pp : ParsedPacket) (next : UInt32) : Prop where
  noSyn : hasFlag pp.tcpFlags tcpSyn = false
  noRst : hasFlag pp.tcpFlags tcpRst = false
  number : pp.tcpSeq = next
  short : pp.payload.length < 2 ^ 31

theorem send_connected (here : (Sender.connected next begun).send pp = some sent) :
    InOrder pp next ∧
      sent = if hasFlag pp.tcpFlags tcpFin then .finished
        else .connected (segEnd next pp.payload) (begun || !pp.payload.isEmpty) := by
  rw [Sender.send] at here
  split at here
  next => cases here
  next careful =>
    simp only [not_or, Bool.not_eq_true, not_not, Nat.not_le] at careful
    refine ⟨⟨careful.1, careful.2.1, careful.2.2.1, careful.2.2.2⟩, ?_⟩
    split at here
    next fin =>
      rw [if_pos fin]
      exact (Option.some.inj here).symm
    next fin =>
      rw [if_neg fin]
      exact (Option.some.inj here).symm

theorem finDirection_of_not (going : ¬ hasFlag pp.tcpFlags tcpFin = true) (d : Direction) :
    finDirection pp.tcpFlags d = d :=
  if_neg fun both => going (Bool.and_eq_true_iff.mp both).1

/-- A packet without payload delivers nothing, -/
theorem empty_delivers (seen : side.sees pp = true) (empty : pp.payload = []) :
    (addSegment cfg state pp nowMs).2.data = pp.payload ∧
      ((addSegment cfg state pp nowMs).2.hasData = true ↔ pp.payload ≠ []) := by
  have silent : (addSegment cfg state pp nowMs).2.data = [] ∧
      (addSegment cfg state pp nowMs).2.hasData = false := by
    cases @addSegment_seen cfg state pp nowMs side seen with
    | reset flag gone nothing => exact nothing
    | progressed memUsed found data hasData =>
        obtain ⟨none, noData, -⟩ :=
          @segmentProgress_of_empty cfg pp nowMs (side.direction state) memUsed empty
        exact ⟨data.trans none, hasData.trans noData⟩
  rw [silent.1, silent.2, empty]
  exact ⟨rfl, iff_of_false Bool.false_ne_true fun filled => filled rfl⟩

/-- buffers nothing, and leaves a direction that is ready so, but for its end. -/
theorem empty_seen (seen : side.sees pp = true) (empty : pp.payload = [])
    (nothing_held : (side.direction state).ooo = []) :
    (side.direction (addSegment cfg state pp nowMs).1).ooo = [] ∧
      (InOrder pp next → Ready next (side.direction state) →
        ¬ hasFlag pp.tcpFlags tcpFin = true →
        Ready next (side.direction (addSegment cfg state pp nowMs).1)) := by
  cases @addSegment_seen cfg state pp nowMs side seen with
  | reset flag gone nothing =>
      rw [gone]
      exact ⟨rfl, fun _ _ _ => ⟨rfl, .inl rfl⟩⟩
  | progressed memUsed found data hasData =>
      obtain ⟨-, -, direction⟩ :=
        @segmentProgress_of_empty cfg pp nowMs (side.direction state) memUsed empty
      rcases found with found | fresh
      · have still : (finDirection pp.tcpFlags
            (initDirection pp.tcpSeq pp.tcpFlags (side.direction state))).ooo = [] :=
          finDirection_ooo.trans (initDirection_ooo.trans nothing_held)
        rw [found, direction]
        refine ⟨still, fun inOrder ready going => ⟨still, .inr ?_⟩⟩
        obtain ⟨noSyn, -, rfl, -⟩ := inOrder
        rw [finDirection_of_not going]
        exact initDirection_ready ready noSyn
      · rw [fresh]
        exact ⟨rfl, fun _ _ _ => ⟨rfl, .inl rfl⟩⟩

theorem payload_seen (seen : side.sees pp = true) (inOrder : InOrder pp next)
    (ready : Ready next (side.direction state)) (filled : pp.payload ≠ []) :
    (addSegment cfg state pp nowMs).2.data = pp.payload ∧
      (addSegment cfg state pp nowMs).2.hasData = true ∧
      (¬ hasFlag pp.tcpFlags tcpFin = true →
        Ready (segEnd next pp.payload) (side.direction (addSegment cfg state pp nowMs).1)) := by
  obtain ⟨noSyn, noRst, rfl, short⟩ := inOrder
  cases @addSegment_seen cfg state pp nowMs side seen with
  | reset flag =>
      rw [noRst] at flag
      cases flag
  | progressed memUsed found data hasData =>
      obtain ⟨whole, filledData, direction⟩ :=
        @segmentProgress_of_ready cfg pp nowMs _ memUsed ready noSyn short filled
      refine ⟨data.trans whole, hasData.trans filledData, fun going => ?_⟩
      rcases found with found | fresh
      · rw [found, direction, finDirection_of_not going]
        exact ⟨initDirection_ooo.trans ready.nothing_held, .inr rfl⟩
      · rw [fresh]
        exact ⟨rfl, .inl rfl⟩

/-- One packet of the direction. -/
theorem Settled.seen (settled : Settled (side.direction state) sender)
    (seen : side.sees pp = true) (here : sender.send pp = some sent)
    (start : sender.unbegun = true → pp.payload ≠ [] →
      (side.direction state).initialized = false ∨
        (side.direction state).nextSeq = pp.tcpSeq) :
    Settled (side.direction (addSegment cfg state pp nowMs).1) sent ∧
      (addSegment cfg state pp nowMs).2.data = pp.payload ∧
      ((addSegment cfg state pp nowMs).2.hasData = true ↔ pp.payload ≠ []) := by
  cases sender with
  | late =>
      rw [Sender.send] at here
      split at here
      next => cases here
      next empty =>
        rw [not_not] at empty
        refine ⟨?_, empty_delivers seen empty⟩
        obtain ⟨held, -⟩ := @empty_seen cfg side state pp nowMs pp.tcpSeq seen empty settled
        split at here
        next =>
          cases here
          exact held
        next =>
          split at here
          next => cases here
          next =>
            cases here
            exact ⟨held, nofun⟩
  | connected next begun =>
      obtain ⟨inOrder, rfl⟩ := send_connected here
      by_cases empty : pp.payload = []
      · refine ⟨?_, empty_delivers seen empty⟩
        obtain ⟨held, ready⟩ := @empty_seen cfg side state pp nowMs next seen empty settled.1
        split
        next => trivial
        next going =>
          refine ⟨held, fun started => ?_⟩
          rw [empty, List.isEmpty_nil, Bool.not_true, Bool.or_false] at started
          have still : segEnd next pp.payload = next := by
            rw [empty]
            exact UInt32.add_zero next
          rw [still]
          exact ready inOrder (settled.2 started) going
      · have ready : Ready next (side.direction state) := by
          cases begun with
          | true => exact settled.2 rfl
          | false =>
              refine ⟨settled.1, ?_⟩
              rw [← inOrder.number]
              exact start rfl empty
        obtain ⟨data, hasData, later⟩ :=
          @payload_seen cfg side state pp nowMs next seen inOrder ready empty
        refine ⟨?_, data, iff_of_true hasData empty⟩
        split
        next => trivial
        next going => exact ⟨(later going).nothing_held, fun _ => later going⟩
  | finished =>
      rw [Sender.send] at here
      split at here
      next => cases here
      next careful =>
        cases here
        rw [not_or, not_not] at careful
        exact ⟨trivial, empty_delivers seen careful.1⟩

theorem reuseStep_settled {reuse later : Reuse} {event : TcpEvent}
    (settled : Settled (side.direction reuse.tcp) reuse.sender)
    (start : MeetsStart side reuse event) (here : reuseStep cfg side reuse event = some later) :
    Settled (side.direction later.tcp) later.sender ∧ DeliversPayload cfg side reuse event := by
  cases event with
  | segment packet nowMs =>
      rw [reuseStep] at here
      cases seen : side.sees packet with
      | true =>
          rw [seen, if_pos rfl, Option.map_eq_some_iff] at here
          obtain ⟨sent, sends, rfl⟩ := here
          obtain ⟨still, delivered⟩ :=
            @Settled.seen cfg side reuse.tcp reuse.sender sent packet nowMs settled seen sends
              (start seen)
          exact ⟨still, fun _ => delivered⟩
      | false =>
          rw [seen, if_neg Bool.false_ne_true] at here
          obtain rfl := Option.some.inj here
          refine ⟨settled.of_kept (addSegment_kept seen), fun set => ?_⟩
          rw [seen] at set
          cases set
  | expire nowMs =>
      obtain rfl := Option.some.inj here
      exact ⟨settled.of_kept expire_kept, trivial⟩

/-- After the close of a flow, whatever late packets of it come, a second connection on its
addresses and ports is delivered in each direction as it comes, in a run where its first payload
in that direction meets no entry with another number. -/
theorem second_connection_delivered (cfg : TcpConfig) (side : Side) {before : TcpReassembly}
    {closing : ParsedPacket} {closedMs : UInt64}
    (closed : (addSegment cfg before closing closedMs).2.closed = true)
    (same : (addSegment cfg before closing closedMs).2.flow = side.flow)
    {transitions : List (Transition Reuse TcpEvent)} {last : Reuse}
    (run : Execution (reuseStep cfg side) ⟨(addSegment cfg before closing closedMs).1, .late⟩
      transitions last)
    (careful : ∀ transition ∈ transitions, MeetsStart side transition.before transition.event) :
    ∀ transition ∈ transitions, DeliversPayload cfg side transition.before transition.event := by
  have start : Settled (side.direction (addSegment cfg before closing closedMs).1) .late := by
    unfold Side.direction directionFor
    rw [find_of_closed closed same]
    exact settled_fresh
  have kept : ∀ {reuse later : Reuse} {event : TcpEvent},
      Settled (side.direction reuse.tcp) reuse.sender → MeetsStart side reuse event →
        reuseStep cfg side reuse event = some later →
          Settled (side.direction later.tcp) later.sender ∧ DeliversPayload cfg side reuse event :=
    fun settled meets here => reuseStep_settled settled meets here
  exact run.forall_transitions (fun settled meets here => (kept settled meets here).1)
    (fun settled meets here => (kept settled meets here).2) start careful

end Reuse

section Samples

/-- A packet from port 1 to port 2 without addresses. -/
def clientPacket (seq : UInt32) (flags : UInt8) (payload : List UInt8) : ParsedPacket :=
  { samplePacket seq flags payload with srcPort := 1, dstPort := 2 }

def serverPacket (seq : UInt32) (flags : UInt8) (payload : List UInt8) : ParsedPacket :=
  { samplePacket seq flags payload with srcPort := 2, dstPort := 1 }

def clientSide : Side := ⟨(clientPacket 0 0 []).flowKey, false⟩

/-- The client has sent its FIN. -/
def halfClosed : TcpReassembly := (addSegment .default .empty (clientPacket 100 tcpFin []) 0).1

/-- The second connection, from its SYN to its first byte. -/
def secondConnection : List TcpEvent :=
  [.segment (clientPacket 5000 tcpSyn []) 2, .segment (serverPacket 900 tcpSyn []) 3,
    .segment (clientPacket 5001 0 [97]) 4]

def serverFin : ParsedPacket := serverPacket 200 tcpFin []

abbrev reuseRun (events : List TcpEvent) : Option (List (Transition Reuse TcpEvent) × Reuse) :=
  execute (reuseStep .default clientSide) ⟨(addSegment .default halfClosed serverFin 1).1, .late⟩
    events

def promptTrace : List (Transition Reuse TcpEvent) × Reuse :=
  (reuseRun secondConnection).get (by decide)

instance (side : Side) (reuse : Reuse) : (event : TcpEvent) → Decidable (MeetsStart side reuse event)
  | .segment _ _ => inferInstanceAs (Decidable (_ = true → _ = true → _ ≠ [] → _ ∨ _))
  | .expire _ => inferInstanceAs (Decidable True)

instance (cfg : TcpConfig) (side : Side) (reuse : Reuse) :
    (event : TcpEvent) → Decidable (DeliversPayload cfg side reuse event)
  | .segment _ _ => inferInstanceAs (Decidable (_ = true → _ = _ ∧ (_ ↔ _)))
  | .expire _ => inferInstanceAs (Decidable True)

theorem second_connection_sample :
    reuseRun secondConnection = some promptTrace ∧
    ∀ transition ∈ promptTrace.1,
      DeliversPayload .default clientSide transition.before transition.event := by
  have ran : reuseRun secondConnection = some promptTrace := (Option.some_get _).symm
  exact ⟨ran, second_connection_delivered .default clientSide (by decide)
    (by decide) (execution_of_execute ran) (by decide)⟩

/-- The last acknowledgement of the first connection comes between. -/
def lateTrace : List (Transition Reuse TcpEvent) × Reuse :=
  (reuseRun (.segment (clientPacket 101 0 []) 1 :: secondConnection)).get (by decide)

theorem late_ack_loses_start :
    ¬ ∀ (cfg : TcpConfig) (side : Side) (before : TcpReassembly) (closing : ParsedPacket)
        (closedMs : UInt64) (transitions : List (Transition Reuse TcpEvent)) (last : Reuse),
        (addSegment cfg before closing closedMs).2.closed = true →
        (addSegment cfg before closing closedMs).2.flow = side.flow →
        Execution (reuseStep cfg side) ⟨(addSegment cfg before closing closedMs).1, .late⟩
          transitions last →
        ∀ transition ∈ transitions,
          DeliversPayload cfg side transition.before transition.event := by
  intro delivered
  have ran : reuseRun (.segment (clientPacket 101 0 []) 1 :: secondConnection) = some lateTrace :=
    (Option.some_get _).symm
  have every := delivered .default clientSide halfClosed serverFin 1 lateTrace.1 lateTrace.2
    (by decide) (by decide) (execution_of_execute ran)
  exact absurd every (by decide)

end Samples

end Idsm.EthProbe
