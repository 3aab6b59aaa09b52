import Idsm.EthProbe.StreamTcpProperties

/-! The reassembly of one direction whose sequence numbers are all moved by one constant. -/

set_option autoImplicit false

namespace Idsm.EthProbe

section Comparison

variable (k a b : UInt32)

theorem shift_sub : a + k - (b + k) = a - b := by
  grind

theorem seqLeq_shift : seqLeq (a + k) (b + k) = seqLeq a b := by
  rw [seqLeq, seqLeq, shift_sub]

theorem seqLt_shift : seqLt (a + k) (b + k) = seqLt a b := by
  rw [seqLt, seqLt, shift_sub]

theorem segEnd_shift (data : List UInt8) : segEnd (a + k) data = segEnd a data + k := by
  unfold segEnd
  grind

theorem shift_inj : a + k = b + k ↔ a = b := by
  constructor
  · intro same
    have zero := shift_sub k a b
    grind
  · intro same
    rw [same]

end Comparison

section Shift

variable (k : UInt32)

def shiftSegments (segments : OooSegments) : OooSegments :=
  segments.map fun segment => (segment.1 + k, segment.2)

/-- A direction that has started. -/
def Direction.moved (d : Direction) : Direction :=
  { d with nextSeq := d.nextSeq + k, ooo := shiftSegments k d.ooo }

def Direction.shift (d : Direction) : Direction :=
  { d with
    nextSeq := if d.initialized then d.nextSeq + k else d.nextSeq
    ooo := shiftSegments k d.ooo }

def Progress.moved (progress : Progress) : Progress :=
  { progress with direction := progress.direction.moved k }

def Drained.moved (drained : Drained) : Drained :=
  { drained with
    nextSeq := drained.nextSeq + k
    remaining := shiftSegments k drained.remaining }

def TcpFlow.shift (reverse : Bool) (flow : TcpFlow) : TcpFlow :=
  flow.setDir reverse ((flow.dir reverse).shift k)

/-- The same flows, with one direction moved. -/
def TcpReassembly.shift (key : FlowKey) (reverse : Bool) (state : TcpReassembly) :
    TcpReassembly :=
  { state with
    flows := state.flows.map fun entry =>
      (entry.1, if entry.1 = key then entry.2.shift k reverse else entry.2) }

def ParsedPacket.shift (pp : ParsedPacket) : ParsedPacket := { pp with tcpSeq := pp.tcpSeq + k }

end Shift

section Segments

variable {k : UInt32} {cfg : TcpConfig} {seq : UInt32} {data : List UInt8} {nowMs : UInt64}
  {progress : Progress} {segments : OooSegments}

theorem oooSize_shift (segments : OooSegments) :
    oooSize (shiftSegments k segments) = oooSize segments := by
  rw [oooSize, oooSize, shiftSegments, List.map_map]
  rfl

theorem emplace_shift (segments : OooSegments) :
    emplace (seq + k) data (shiftSegments k segments) =
      shiftSegments k (emplace seq data segments) := by
  cases segments with
  | nil => rfl
  | cons segment rest =>
      obtain ⟨start, held⟩ := segment
      change (if start + k = seq + k then _ else _) = shiftSegments k (if start = seq then _ else _)
      by_cases here : start = seq
      · rw [if_pos here, if_pos ((shift_inj k start seq).mpr here)]
        rfl
      · rw [if_neg here, if_neg fun same => here ((shift_inj k start seq).mp same)]
        rfl

theorem dominated_shift (before after : OooSegments) :
    dominated (shiftSegments k before) (shiftSegments k after) (seq + k) data =
      dominated before after seq data := by
  unfold dominated
  congr 1
  · cases after with
    | nil => rfl
    | cons segment rest =>
        obtain ⟨start, held⟩ := segment
        have same : (start + k == seq + k) = (start == seq) := by
          rw [Bool.eq_iff_iff, beq_iff_eq, beq_iff_eq, shift_inj]
        change ((start + k == seq + k) && seqLeq (segEnd (seq + k) data) (segEnd (start + k) held)) =
          ((start == seq) && seqLeq (segEnd seq data) (segEnd start held))
        rw [same, segEnd_shift, segEnd_shift, seqLeq_shift]
  · rw [shiftSegments, List.getLast?_map]
    cases before.getLast? with
    | none => rfl
    | some segment =>
        obtain ⟨start, held⟩ := segment
        change seqLeq (segEnd (seq + k) data) (segEnd (start + k) held) = _
        rw [segEnd_shift, segEnd_shift, seqLeq_shift]

/-- The unsigned order of the buffered numbers and a new one survives the move. -/
def OrderKept (k seq : UInt32) (segments : OooSegments) : Prop :=
  ∀ segment ∈ segments, segment.1 + k < seq + k ↔ segment.1 < seq

instance (k seq : UInt32) (segments : OooSegments) : Decidable (OrderKept k seq segments) :=
  inferInstanceAs (Decidable (∀ _ ∈ _, _))

theorem OrderKept.split (kept : OrderKept k seq segments) :
    (shiftSegments k segments).takeWhile (fun segment => decide (segment.1 < seq + k)) =
        shiftSegments k (segments.takeWhile fun segment => decide (segment.1 < seq)) ∧
      (shiftSegments k segments).dropWhile (fun segment => decide (segment.1 < seq + k)) =
        shiftSegments k (segments.dropWhile fun segment => decide (segment.1 < seq)) := by
  induction segments with
  | nil => exact ⟨rfl, rfl⟩
  | cons segment rest ih =>
      obtain ⟨taken, dropped⟩ := ih fun other member => kept other (List.mem_cons_of_mem _ member)
      have order := kept segment List.mem_cons_self
      rw [shiftSegments, List.map_cons, ← shiftSegments]
      by_cases below : segment.1 < seq
      · have moved := order.mpr below
        rw [List.takeWhile_cons_of_pos (by simpa using moved),
          List.takeWhile_cons_of_pos (by simpa using below),
          List.dropWhile_cons_of_pos (by simpa using moved),
          List.dropWhile_cons_of_pos (by simpa using below), taken, dropped]
        exact ⟨rfl, rfl⟩
      · have moved : ¬segment.1 + k < seq + k := fun less => below (order.mp less)
        rw [List.takeWhile_cons_of_neg (by simpa using moved),
          List.takeWhile_cons_of_neg (by simpa using below),
          List.dropWhile_cons_of_neg (by simpa using moved),
          List.dropWhile_cons_of_neg (by simpa using below)]
        exact ⟨rfl, rfl⟩

theorem covered_shift (segments : OooSegments) :
    (shiftSegments k segments).takeWhile
        (fun segment => seqLeq (segEnd segment.1 segment.2) (segEnd (seq + k) data)) =
        shiftSegments k (segments.takeWhile fun segment =>
          seqLeq (segEnd segment.1 segment.2) (segEnd seq data)) ∧
      (shiftSegments k segments).dropWhile
        (fun segment => seqLeq (segEnd segment.1 segment.2) (segEnd (seq + k) data)) =
        shiftSegments k (segments.dropWhile fun segment =>
          seqLeq (segEnd segment.1 segment.2) (segEnd seq data)) := by
  rw [shiftSegments, List.takeWhile_map, List.dropWhile_map]
  have same : ((fun segment : UInt32 × List UInt8 =>
      seqLeq (segEnd segment.1 segment.2) (segEnd (seq + k) data)) ∘
        fun segment : UInt32 × List UInt8 => (segment.1 + k, segment.2)) =
      fun segment => seqLeq (segEnd segment.1 segment.2) (segEnd seq data) := by
    funext segment
    rw [Function.comp_apply, segEnd_shift, segEnd_shift, seqLeq_shift]
  rw [same]
  exact ⟨rfl, rfl⟩

theorem bufferSegment_shift (kept : OrderKept k seq progress.direction.ooo) :
    bufferSegment cfg (seq + k) data nowMs (progress.moved k) =
      (bufferSegment cfg seq data nowMs progress).moved k := by
  obtain ⟨taken, dropped⟩ := kept.split
  unfold bufferSegment
  dsimp only
  by_cases room : progress.direction.oooBytes + data.length ≤ cfg.maxStreamBytes ∧
      progress.memUsed + data.length ≤ cfg.maxMemBytes
  · rw [if_pos room]
    refine (if_pos room).trans ?_
    have before : (progress.moved k).direction.ooo = shiftSegments k progress.direction.ooo := rfl
    rw [before, taken, dropped, dominated_shift, (covered_shift _).1, (covered_shift _).2,
      oooSize_shift, emplace_shift]
    split
    · rfl
    · unfold Progress.moved Direction.moved shiftSegments
      dsimp only
      rw [List.map_append]
  · rw [if_neg room]
    exact if_neg room

/-- The segment goes to the buffer. -/
def Beyond (seq nextSeq : UInt32) (data : List UInt8) : Prop :=
  seqLeq (segEnd seq data) nextSeq = false ∧ seqLt seq nextSeq = false ∧ seq ≠ nextSeq

instance (seq nextSeq : UInt32) (data : List UInt8) : Decidable (Beyond seq nextSeq data) :=
  inferInstanceAs (Decidable (_ ∧ _ ∧ _))

theorem deliver_shift (data : List UInt8) :
    deliver data (progress.moved k) = (deliver data progress).moved k := by
  unfold deliver Progress.moved Direction.moved
  dsimp only
  rw [segEnd_shift]

theorem placeSegment_shift
    (kept : Beyond seq progress.direction.nextSeq data → OrderKept k seq progress.direction.ooo) :
    placeSegment cfg (seq + k) data nowMs (progress.moved k) =
      (placeSegment cfg seq data nowMs progress).moved k := by
  have next : (progress.moved k).direction.nextSeq = progress.direction.nextSeq + k := rfl
  unfold placeSegment
  dsimp only
  rw [next, segEnd_shift, seqLeq_shift, seqLt_shift, shift_sub, deliver_shift, deliver_shift]
  split
  · rfl
  next ahead =>
    split
    · rfl
    next after =>
      by_cases here : seq = progress.direction.nextSeq
      · rw [if_pos here, if_pos ((shift_inj k _ _).mpr here)]
      · rw [if_neg here, if_neg fun same => here ((shift_inj k _ _).mp same)]
        exact bufferSegment_shift (kept ⟨by simpa using ahead, by simpa using after, here⟩)

theorem skipGap_shift (d : Direction) :
    skipGap cfg nowMs (d.moved k) = (skipGap cfg nowMs d).moved k := by
  unfold skipGap
  cases held : d.ooo with
  | nil =>
      have none : (d.moved k).ooo = [] := by rw [Direction.moved, held]; rfl
      rw [none]
  | cons segment rest =>
      obtain ⟨start, data⟩ := segment
      have some : (d.moved k).ooo = (start + k, data) :: shiftSegments k rest := by
        rw [Direction.moved, held]
        rfl
      have next : (d.moved k).nextSeq = d.nextSeq + k := rfl
      rw [some]
      dsimp only
      rw [next, seqLt_shift]
      by_cases old : d.gapPending = true ∧ cfg.gapTimeoutMs ≤ nowMs - d.gapSinceMs ∧
          seqLt d.nextSeq start = true
      · rw [if_pos old]
        exact if_pos old
      · rw [if_neg old]
        exact if_neg old

theorem drainOoo_shift (nextSeq : UInt32) (segments : OooSegments) :
    drainOoo (nextSeq + k) (shiftSegments k segments) = (drainOoo nextSeq segments).moved k := by
  induction segments generalizing nextSeq with
  | nil => rfl
  | cons segment rest ih =>
      obtain ⟨start, held⟩ := segment
      change drainOoo (nextSeq + k) ((start + k, held) :: shiftSegments k rest) = _
      rw [drainOoo, drainOoo, seqLeq_shift, segEnd_shift, seqLt_shift, shift_sub]
      split
      · split
        · rw [ih]
          rfl
        · rw [ih]
          rfl
      · rfl

theorem drainSegments_shift (progress : Progress) :
    drainSegments (progress.moved k) = (drainSegments progress).moved k := by
  unfold drainSegments
  dsimp only
  have held : (progress.moved k).direction.ooo = shiftSegments k progress.direction.ooo := rfl
  have next : (progress.moved k).direction.nextSeq = progress.direction.nextSeq + k := rfl
  rw [held, next, drainOoo_shift]
  by_cases none : progress.direction.ooo = []
  · rw [if_pos none, none]
    rfl
  · have empty : ∀ segments, (shiftSegments k segments).isEmpty = segments.isEmpty := by
      intro segments
      cases segments <;> rfl
    have some : shiftSegments k progress.direction.ooo ≠ [] :=
      fun gone => none (List.map_eq_nil_iff.mp gone)
    rw [if_neg none, if_neg some]
    unfold Drained.moved Progress.moved Direction.moved
    dsimp only
    rw [empty]

theorem addData_shift
    (kept : data ≠ [] → Beyond seq progress.direction.nextSeq data →
      OrderKept k seq progress.direction.ooo) :
    addData cfg (seq + k) data nowMs (progress.moved k) =
      (addData cfg seq data nowMs progress).moved k := by
  unfold addData
  dsimp only
  by_cases none : data = []
  · rw [if_pos none, if_pos none]
  · rw [if_neg none, if_neg none, placeSegment_shift (kept none), ← drainSegments_shift]
    congr 1
    unfold Progress.moved
    dsimp only
    rw [skipGap_shift]

theorem initDirection_shift (flags : UInt8) (d : Direction) :
    initDirection (seq + k) flags (d.shift k) = (initDirection seq flags d).moved k := by
  unfold initDirection
  have started : (d.shift k).initialized = d.initialized := rfl
  rw [started]
  split
  next already =>
    unfold Direction.shift Direction.moved
    rw [if_pos already]
  next fresh =>
    have turned : seq + k + (if hasFlag flags tcpSyn = true then 1 else 0) =
        seq + (if hasFlag flags tcpSyn = true then 1 else 0) + k := by grind
    rw [turned]
    rfl

theorem finDirection_shift (flags : UInt8) (d : Direction) :
    finDirection flags (d.moved k) = (finDirection flags d).moved k := by
  have seen : (d.moved k).finSeen = d.finSeen := rfl
  unfold finDirection
  rw [seen]
  split
  · have turned : d.nextSeq + k + 1 = d.nextSeq + 1 + k := by grind
    unfold Direction.moved
    dsimp only
    rw [turned]
  · rfl

theorem moved_of_initialized {d : Direction} (started : d.initialized = true) :
    d.moved k = d.shift k := by
  unfold Direction.moved Direction.shift
  rw [if_pos started]

theorem finDirection_initialized (flags : UInt8) (d : Direction) :
    (finDirection flags d).initialized = d.initialized := by
  unfold finDirection
  split <;> rfl

end Segments

section Flows

variable {k : UInt32} {cfg : TcpConfig} {state : TcpReassembly} {key other : FlowKey}
  {reverse : Bool} {pp : ParsedPacket} {nowMs : UInt64}

/-- The buffer keeps its order when the packet is buffered. -/
def PacketKept (k : UInt32) (pp : ParsedPacket) (d : Direction) : Prop :=
  let d := initDirection pp.tcpSeq pp.tcpFlags d
  pp.payload ≠ [] → Beyond pp.tcpSeq d.nextSeq pp.payload → OrderKept k pp.tcpSeq d.ooo

instance (k : UInt32) (pp : ParsedPacket) (d : Direction) : Decidable (PacketKept k pp d) :=
  inferInstanceAs (Decidable (_ → _))

theorem segmentProgress_shift {d : Direction} {memUsed : Nat} (kept : PacketKept k pp d) :
    segmentProgress cfg (pp.shift k) nowMs (d.shift k) memUsed =
      let progress := segmentProgress cfg pp nowMs d memUsed
      { progress with direction := progress.direction.shift k } := by
  have begun : Progress.start (initDirection (pp.shift k).tcpSeq (pp.shift k).tcpFlags (d.shift k))
      memUsed = (Progress.start (initDirection pp.tcpSeq pp.tcpFlags d) memUsed).moved k :=
    congrArg (Progress.start · memUsed) (initDirection_shift pp.tcpFlags d)
  have added := @addData_shift k cfg pp.tcpSeq pp.payload nowMs
    (.start (initDirection pp.tcpSeq pp.tcpFlags d) memUsed) kept
  unfold segmentProgress
  dsimp only
  rw [begun]
  have moved : addData cfg (pp.shift k).tcpSeq (pp.shift k).payload nowMs
      ((Progress.start (initDirection pp.tcpSeq pp.tcpFlags d) memUsed).moved k) = _ := added
  have flags : (pp.shift k).tcpFlags = pp.tcpFlags := rfl
  rw [moved, flags]
  unfold Progress.moved
  dsimp only
  rw [finDirection_shift, moved_of_initialized]
  rw [finDirection_initialized]
  exact addData_flags.initialized.trans (initDirection_initialized _ _ _)

theorem find_shift :
    (state.shift k key reverse).find other =
      (state.find other).map fun flow => if other = key then flow.shift k reverse else flow := by
  unfold TcpReassembly.find TcpReassembly.shift
  dsimp only
  rw [List.find?_map, Option.map_map, Option.map_map]
  have same : ((fun entry : FlowKey × TcpFlow => decide (entry.1 = other)) ∘
      fun entry : FlowKey × TcpFlow =>
        (entry.1, if entry.1 = key then entry.2.shift k reverse else entry.2)) =
      fun entry => decide (entry.1 = other) := rfl
  rw [same]
  cases found : state.flows.find? fun entry => decide (entry.1 = other) with
  | none => rfl
  | some entry =>
      have named : entry.1 = other := by simpa using List.find?_some found
      subst named
      rfl

theorem shift_oooBytes (flow : TcpFlow) (side : Bool) :
    ((flow.shift k reverse).dir side).oooBytes = (flow.dir side).oooBytes := by
  unfold TcpFlow.shift TcpFlow.setDir
  dsimp only
  split
  next same => rw [same]; rfl
  next => rfl

theorem eraseFlow_shift :
    (state.shift k key reverse).eraseFlow other = (state.eraseFlow other).shift k key reverse := by
  have flows : (state.shift k key reverse).flows.filter (fun entry => decide (entry.1 ≠ other)) =
      (state.flows.filter fun entry => decide (entry.1 ≠ other)).map fun entry =>
        (entry.1, if entry.1 = key then entry.2.shift k reverse else entry.2) := by
    rw [TcpReassembly.shift, List.filter_map]
    rfl
  unfold TcpReassembly.eraseFlow
  dsimp only
  rw [find_shift, flows]
  cases state.find other with
  | none => rfl
  | some flow =>
      dsimp only [Option.map_some]
      split
      · rw [shift_oooBytes, shift_oooBytes]
        rfl
      · rfl

theorem setFlow_shift (flow : TcpFlow) :
    (state.shift k key reverse).setFlow key (flow.shift k reverse) =
      (state.setFlow key flow).shift k key reverse := by
  unfold TcpReassembly.setFlow TcpReassembly.shift
  dsimp only
  rw [List.filter_map, List.map_append, List.map_singleton, if_pos rfl]
  rfl

theorem makeRoom_shift {maxFlows fuel : Nat} :
    TcpReassembly.makeRoom maxFlows other fuel (state.shift k key reverse) =
      ((TcpReassembly.makeRoom maxFlows other fuel state).1.shift k key reverse,
        (TcpReassembly.makeRoom maxFlows other fuel state).2) := by
  induction fuel generalizing state with
  | zero => rfl
  | succ fuel ih =>
      have lru : (state.shift k key reverse).lru = state.lru := rfl
      have flows : (state.shift k key reverse).flows.length = state.flows.length :=
        List.length_map _
      rw [TcpReassembly.makeRoom, TcpReassembly.makeRoom, lru, flows]
      cases state.lru with
      | nil => rfl
      | cons front rest =>
          dsimp only
          split
          · rw [eraseFlow_shift, ih]
          · rfl

theorem find_makeRoom {maxFlows fuel : Nat} (absent : state.find key = none) :
    (TcpReassembly.makeRoom maxFlows key fuel state).1.find key = none := by
  induction fuel generalizing state with
  | zero => exact absent
  | succ fuel ih =>
      rw [TcpReassembly.makeRoom]
      cases state.lru with
      | nil => exact absent
      | cons front rest =>
          dsimp only
          split
          · refine ih ?_
            rw [find_eraseFlow, absent, ite_self]
          · exact absent

/-- The direction that a packet meets. -/
def directionFor (state : TcpReassembly) (key : FlowKey) (reverse : Bool) : Direction :=
  ((state.find key).getD .fresh).dir reverse

theorem setDir_dir (flow : TcpFlow) (d : Direction) : (flow.setDir reverse d).dir reverse = d :=
  if_pos rfl

theorem setDir_other {side : Bool} (flow : TcpFlow) (d : Direction) (apart : side ≠ reverse) :
    (flow.setDir reverse d).dir side = flow.dir side := if_neg apart

theorem shift_setDir (flow : TcpFlow) (d : Direction) :
    (flow.shift k reverse).setDir reverse (d.shift k) = (flow.setDir reverse d).shift k reverse := by
  unfold TcpFlow.shift
  rw [setDir_dir]
  unfold TcpFlow.setDir
  congr 1
  funext side
  dsimp only
  split <;> rfl

theorem shift_finSeen (flow : TcpFlow) (side : Bool) :
    ((flow.shift k reverse).dir side).finSeen = (flow.dir side).finSeen := by
  by_cases same : side = reverse
  · subst same
    rw [TcpFlow.shift, setDir_dir]
    rfl
  · rw [TcpFlow.shift, setDir_other flow _ same]

theorem shift_fresh : TcpFlow.fresh.shift k reverse = TcpFlow.fresh := by
  unfold TcpFlow.shift TcpFlow.setDir TcpFlow.fresh
  congr 1
  funext side
  dsimp only
  split <;> rfl

/-- The state with room for the flow, and whether another flow went for it. -/
def withRoom (cfg : TcpConfig) (state : TcpReassembly) (key : FlowKey) : TcpReassembly × Bool :=
  if (state.find key).isNone then state.makeRoom cfg.maxFlows key state.lru.length
  else (state, false)

theorem withRoom_shift :
    withRoom cfg (state.shift k key reverse) key =
      ((withRoom cfg state key).1.shift k key reverse, (withRoom cfg state key).2) := by
  have lru : (state.shift k key reverse).lru = state.lru := rfl
  rw [withRoom, withRoom, find_shift, Option.isNone_map, lru]
  split
  · exact makeRoom_shift
  · rfl

theorem find_withRoom : (withRoom cfg state key).1.find key = state.find key := by
  unfold withRoom
  split
  next absent =>
    rw [Option.isNone_iff_eq_none] at absent
    rw [find_makeRoom absent, absent]
  next => rfl

/-- What follows when there is room. -/
def storeSegment (cfg : TcpConfig) (pp : ParsedPacket) (nowMs : UInt64) (key : FlowKey)
    (reverse : Bool) (flow : TcpFlow) (state : TcpReassembly) (evicted : Bool) :
    TcpReassembly × DeliverResult :=
  let state := (state.setFlow key flow).touch key
  if hasFlag pp.tcpFlags tcpRst then
    (state.eraseFlow key, ⟨false, [], reverse, key, true, evicted⟩)
  else
    let progress := segmentProgress cfg pp nowMs (flow.dir reverse) state.memUsed
    let flow := flow.setDir reverse progress.direction
    let state := { state.setFlow key flow with memUsed := progress.memUsed }
    let closed := (flow.dir false).finSeen && (flow.dir true).finSeen
    (if closed then state.eraseFlow key else state,
      ⟨progress.hasData, progress.data, reverse, key, closed, evicted || progress.evicted⟩)

theorem addSegment_eq (tcp : pp.isTcp ≠ false) :
    addSegment cfg state pp nowMs = storeSegment cfg pp nowMs pp.flowKey (!pp.forward)
      { ((withRoom cfg state pp.flowKey).1.find pp.flowKey).getD .fresh with lastSeenMs := nowMs }
      (withRoom cfg state pp.flowKey).1 (withRoom cfg state pp.flowKey).2 := by
  rw [addSegment, if_neg tcp]
  rfl

theorem storeSegment_shift {flow : TcpFlow} {evicted : Bool}
    (kept : PacketKept k pp (flow.dir reverse)) :
    storeSegment cfg (pp.shift k) nowMs key reverse (flow.shift k reverse)
        (state.shift k key reverse) evicted =
      ((storeSegment cfg pp nowMs key reverse flow state evicted).1.shift k key reverse,
        (storeSegment cfg pp nowMs key reverse flow state evicted).2) := by
  have flags : (pp.shift k).tcpFlags = pp.tcpFlags := rfl
  unfold storeSegment
  dsimp only
  rw [flags, setFlow_shift]
  have touched : ((state.setFlow key flow).shift k key reverse).touch key =
      ((state.setFlow key flow).touch key).shift k key reverse := rfl
  rw [touched, eraseFlow_shift]
  generalize (state.setFlow key flow).touch key = state
  split
  · rfl
  · have progressed := @segmentProgress_shift k cfg pp nowMs (flow.dir reverse) state.memUsed kept
    have used : (state.shift k key reverse).memUsed = state.memUsed := rfl
    have met : (flow.shift k reverse).dir reverse = (flow.dir reverse).shift k := setDir_dir _ _
    rw [used, met, progressed]
    generalize segmentProgress cfg pp nowMs (flow.dir reverse) state.memUsed = progress
    dsimp only
    rw [shift_setDir, setFlow_shift, shift_finSeen, shift_finSeen]
    have stored : { (state.setFlow key (flow.setDir reverse progress.direction)).shift k key
          reverse with memUsed := progress.memUsed } =
        TcpReassembly.shift k key reverse
          { state.setFlow key (flow.setDir reverse progress.direction) with
            memUsed := progress.memUsed } := rfl
    rw [stored, eraseFlow_shift]
    split <;> rfl

/-- One packet of the moved direction gives the same result and the moved state. -/
theorem addSegment_shift (flow : pp.flowKey = key) (side : (!pp.forward) = reverse)
    (kept : PacketKept k pp (directionFor state key reverse)) :
    addSegment cfg (state.shift k key reverse) (pp.shift k) nowMs =
      ((addSegment cfg state pp nowMs).1.shift k key reverse,
        (addSegment cfg state pp nowMs).2) := by
  subst flow side
  by_cases other : pp.isTcp = false
  · have moved : (pp.shift k).isTcp = false := other
    rw [addSegment_of_not_tcp other, addSegment_of_not_tcp moved]
  · have moved : (pp.shift k).isTcp ≠ false := other
    have sameFlow : (pp.shift k).flowKey = pp.flowKey := rfl
    have sameSide : (pp.shift k).forward = pp.forward := rfl
    have met : { (((withRoom cfg state pp.flowKey).1.shift k pp.flowKey (!pp.forward)).find
          pp.flowKey).getD .fresh with lastSeenMs := nowMs } =
        TcpFlow.shift k (!pp.forward) { ((withRoom cfg state pp.flowKey).1.find pp.flowKey).getD
          .fresh with lastSeenMs := nowMs } := by
      rw [find_shift]
      cases (withRoom cfg state pp.flowKey).1.find pp.flowKey with
      | none =>
          change { TcpFlow.fresh with lastSeenMs := nowMs } =
            { TcpFlow.fresh.shift k (!pp.forward) with lastSeenMs := nowMs }
          rw [shift_fresh]
      | some flow =>
          change { (if pp.flowKey = pp.flowKey then _ else flow) with lastSeenMs := nowMs } = _
          rw [if_pos rfl]
          rfl
    rw [addSegment_eq other, addSegment_eq moved, sameFlow, sameSide, withRoom_shift]
    dsimp only
    rw [met]
    refine storeSegment_shift ?_
    rw [find_withRoom]
    exact kept

end Flows

section Runs

variable {k : UInt32} {cfg : TcpConfig} {key : FlowKey} {reverse : Bool}

/-- A packet and when it came. -/
abbrev Arrival := ParsedPacket × UInt64

def addSegments (cfg : TcpConfig) (state : TcpReassembly) :
    List Arrival → TcpReassembly × List DeliverResult
  | [] => (state, [])
  | (pp, nowMs) :: later =>
      let (state, result) := addSegment cfg state pp nowMs
      let (state, results) := addSegments cfg state later
      (state, result :: results)

def shiftArrivals (k : UInt32) (arrivals : List Arrival) : List Arrival :=
  arrivals.map fun arrival => (arrival.1.shift k, arrival.2)

/-- No packet of the run meets a buffer whose unsigned order the move changes. -/
def ArrivalsKept (k : UInt32) (cfg : TcpConfig) (key : FlowKey) (reverse : Bool) :
    TcpReassembly → List Arrival → Prop
  | _, [] => True
  | state, (pp, nowMs) :: later =>
      PacketKept k pp (directionFor state key reverse) ∧
        ArrivalsKept k cfg key reverse (addSegment cfg state pp nowMs).1 later

instance decidableArrivalsKept (k : UInt32) (cfg : TcpConfig) (key : FlowKey) (reverse : Bool) :
    ∀ state arrivals, Decidable (ArrivalsKept k cfg key reverse state arrivals)
  | _, [] => .isTrue trivial
  | state, (pp, nowMs) :: later =>
      have := decidableArrivalsKept k cfg key reverse (addSegment cfg state pp nowMs).1 later
      inferInstanceAs (Decidable (PacketKept k pp (directionFor state key reverse) ∧
        ArrivalsKept k cfg key reverse (addSegment cfg state pp nowMs).1 later))

/-- The flows' buffered bytes in the order they are kept. -/
def TcpReassembly.buffered (state : TcpReassembly) : List (FlowKey × List (List UInt8) ×
    List (List UInt8)) :=
  state.flows.map fun entry =>
    (entry.1, (entry.2.dir false).ooo.map Prod.snd, (entry.2.dir true).ooo.map Prod.snd)

theorem buffered_shift (state : TcpReassembly) :
    (state.shift k key reverse).buffered = state.buffered := by
  have bytes : ∀ (flow : TcpFlow) side,
      ((flow.shift k reverse).dir side).ooo.map Prod.snd = (flow.dir side).ooo.map Prod.snd := by
    intro flow side
    by_cases same : side = reverse
    · subst same
      rw [TcpFlow.shift, setDir_dir, Direction.shift, shiftSegments, List.map_map]
      rfl
    · rw [TcpFlow.shift, setDir_other flow _ same]
  unfold TcpReassembly.buffered TcpReassembly.shift
  rw [List.map_map]
  refine List.map_congr_left fun entry _ => ?_
  rw [Function.comp_apply]
  dsimp only
  split
  · rw [bytes, bytes]
  · rfl

theorem addSegments_shift {state : TcpReassembly} {arrivals : List Arrival}
    (oneDirection : ∀ arrival ∈ arrivals,
      arrival.1.flowKey = key ∧ (!arrival.1.forward) = reverse)
    (kept : ArrivalsKept k cfg key reverse state arrivals) :
    addSegments cfg (state.shift k key reverse) (shiftArrivals k arrivals) =
      ((addSegments cfg state arrivals).1.shift k key reverse,
        (addSegments cfg state arrivals).2) := by
  induction arrivals generalizing state with
  | nil => rfl
  | cons arrival later ih =>
      obtain ⟨pp, nowMs⟩ := arrival
      obtain ⟨flow, side⟩ := oneDirection (pp, nowMs) List.mem_cons_self
      obtain ⟨here, behind⟩ := kept
      have first := @addSegment_shift k cfg state key reverse pp nowMs flow side here
      have rest := ih (fun arrival member => oneDirection arrival (List.mem_cons_of_mem _ member))
        behind
      rw [shiftArrivals, List.map_cons, ← shiftArrivals, addSegments, addSegments]
      dsimp only
      rw [first, rest]

/-- A direction that has not begun looks the same when it is moved. -/
theorem shift_of_unseen {state : TcpReassembly}
    (unseen : ∀ entry ∈ state.flows, entry.1 = key → entry.2.dir reverse = .fresh) :
    state.shift k key reverse = state := by
  have flows : (state.flows.map fun entry =>
      (entry.1, if entry.1 = key then entry.2.shift k reverse else entry.2)) = state.flows := by
    conv_rhs => rw [← List.map_id state.flows]
    refine List.map_congr_left fun entry member => ?_
    by_cases here : entry.1 = key
    · have same : entry.2.shift k reverse = entry.2 := by
        unfold TcpFlow.shift TcpFlow.setDir
        rw [unseen entry member here]
        congr 1
        funext side
        split
        next there => rw [there, unseen entry member here]; rfl
        next => rfl
      rw [if_pos here, same]
      rfl
    · rw [if_neg here]
      rfl
  unfold TcpReassembly.shift
  rw [flows]

/-- In every run of one direction's packets whose buffered numbers keep their unsigned
order: moving all numbers by `k` changes no result and no buffered byte. -/
theorem sequence_shift_invariant (k : UInt32) (cfg : TcpConfig) {state : TcpReassembly}
    {arrivals : List Arrival}
    (unseen : ∀ entry ∈ state.flows, entry.1 = key → entry.2.dir reverse = .fresh)
    (oneDirection : ∀ arrival ∈ arrivals,
      arrival.1.flowKey = key ∧ (!arrival.1.forward) = reverse)
    (kept : ArrivalsKept k cfg key reverse state arrivals) :
    (addSegments cfg state (shiftArrivals k arrivals)).2 = (addSegments cfg state arrivals).2 ∧
      (addSegments cfg state (shiftArrivals k arrivals)).1.buffered =
        (addSegments cfg state arrivals).1.buffered ∧
      (addSegments cfg state (shiftArrivals k arrivals)).1.memUsed =
        (addSegments cfg state arrivals).1.memUsed := by
  have shifted := addSegments_shift oneDirection kept
  rw [shift_of_unseen unseen] at shifted
  rw [shifted]
  exact ⟨rfl, buffered_shift _, rfl⟩

/-- Two buffered packets, the later one first, and then the bytes in front of them. -/
def holedArrivals : List Arrival :=
  [(samplePacket 0 0 [0], 0), (samplePacket 5 0 [5, 6], 0), (samplePacket 3 0 [3], 0),
    (samplePacket 1 0 [1, 2], 0)]

theorem sequence_shift_sample :
    (addSegments .default .empty holedArrivals).2.map DeliverResult.data =
        [[0], [], [], [1, 2, 3]] ∧
      (addSegments .default .empty (shiftArrivals 1000 holedArrivals)).2 =
        (addSegments .default .empty holedArrivals).2 ∧
      (addSegments .default .empty (shiftArrivals 1000 holedArrivals)).1.buffered =
        (addSegments .default .empty holedArrivals).1.buffered ∧
      (addSegments .default .empty (shiftArrivals 1000 holedArrivals)).1.memUsed =
        (addSegments .default .empty holedArrivals).1.memUsed := by
  refine ⟨by decide, @sequence_shift_invariant (samplePacket 0 0 []).flowKey false 1000 .default
    _ _ ?_ (by decide) (by decide)⟩
  intro entry none
  cases none

/-- The buffered numbers lie on both sides of zero when all are moved down by four. -/
theorem sequence_shift_loses_order :
    (∀ arrival ∈ holedArrivals,
      arrival.1.flowKey = (samplePacket 0 0 []).flowKey ∧ (!arrival.1.forward) = false) ∧
      (addSegments .default .empty (shiftArrivals 0xFFFFFFFC holedArrivals)).2.map
          DeliverResult.data ≠
        (addSegments .default .empty holedArrivals).2.map DeliverResult.data := by
  exact ⟨by decide, by decide⟩

end Runs

end Idsm.EthProbe
