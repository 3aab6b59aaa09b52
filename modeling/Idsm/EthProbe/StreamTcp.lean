import Idsm.EthProbe.Packet

/-! TCP stream reassembly, `stream_tcp.cpp`. The out-of-order segments of a direction stay
in the order of their unsigned keys, as the source's map keeps them. -/

set_option autoImplicit false

namespace Idsm.EthProbe

/-- Sequence comparison that tolerates wraparound. -/
def seqLeq (a b : UInt32) : Bool := (a - b).toInt32 ≤ 0

def seqLt (a b : UInt32) : Bool := (a - b).toInt32 < 0

structure TcpConfig where
  maxFlows : Nat
  maxStreamBytes : Nat
  maxMemBytes : Nat
  gapTimeoutMs : UInt64
  idleTimeoutMs : UInt64
  deriving DecidableEq, Repr

def TcpConfig.default : TcpConfig := ⟨1024, 64 * 1024, 4 * 1024 * 1024, 5000, 120000⟩

abbrev OooSegments := List (UInt32 × List UInt8)

structure Direction where
  initialized : Bool
  nextSeq : UInt32
  ooo : OooSegments
  oooBytes : Nat
  gapPending : Bool
  gapSinceMs : UInt64
  finSeen : Bool
  deriving DecidableEq, Repr

def Direction.fresh : Direction := ⟨false, 0, [], 0, false, 0, false⟩

structure TcpFlow where
  dir : Bool → Direction
  lastSeenMs : UInt64

def TcpFlow.fresh : TcpFlow := ⟨fun _ => .fresh, 0⟩

structure FlowKey where
  aIp : List UInt8
  bIp : List UInt8
  aPort : UInt16
  bPort : UInt16
  deriving DecidableEq, Repr

/-- `lru` starts with the least recently used flow. -/
structure TcpReassembly where
  flows : List (FlowKey × TcpFlow)
  lru : List FlowKey
  memUsed : Nat

def TcpReassembly.empty : TcpReassembly := ⟨[], [], 0⟩

/-- `reverse` is direction 1, from `b` to `a`. -/
structure DeliverResult where
  hasData : Bool
  data : List UInt8
  reverse : Bool
  flow : FlowKey
  closed : Bool
  evicted : Bool
  deriving DecidableEq, Repr

section Segments

/-- What one segment does to its direction and the memory pool. -/
structure Progress where
  direction : Direction
  memUsed : Nat
  hasData : Bool
  data : List UInt8
  evicted : Bool
  deriving DecidableEq, Repr

def Progress.start (direction : Direction) (memUsed : Nat) : Progress :=
  ⟨direction, memUsed, false, [], false⟩

def segEnd (seq : UInt32) (data : List UInt8) : UInt32 := seq + UInt32.ofNat data.length

def oooSize (segments : OooSegments) : Nat := (segments.map fun segment => segment.2.length).sum

/-- The neighbours hold all bytes of the segment already. -/
def dominated (before after : OooSegments) (seq : UInt32) (data : List UInt8) : Bool :=
  (match after with
    | [] => false
    | (start, held) :: _ => start == seq && seqLeq (segEnd seq data) (segEnd start held)) ||
  (match before.getLast? with
    | none => false
    | some (start, held) => seqLeq (segEnd seq data) (segEnd start held))

/-- `emplace`: an entry that is there stays. -/
def emplace (seq : UInt32) (data : List UInt8) (segments : OooSegments) : OooSegments :=
  match segments with
  | [] => [(seq, data)]
  | (start, held) :: rest =>
      if start = seq then (start, held) :: rest else (seq, data) :: (start, held) :: rest

/-- Buffer a segment past a hole; later segments that it covers go. -/
def bufferSegment (cfg : TcpConfig) (seq : UInt32) (data : List UInt8) (nowMs : UInt64)
    (progress : Progress) : Progress :=
  let d := progress.direction
  if d.oooBytes + data.length ≤ cfg.maxStreamBytes ∧
      progress.memUsed + data.length ≤ cfg.maxMemBytes then
    let before := d.ooo.takeWhile fun segment => decide (segment.1 < seq)
    let after := d.ooo.dropWhile fun segment => decide (segment.1 < seq)
    if dominated before after seq data then progress
    else
      let covered := fun segment : UInt32 × List UInt8 =>
        seqLeq (segEnd segment.1 segment.2) (segEnd seq data)
      let dropped := oooSize (after.takeWhile covered)
      { progress with
        memUsed := progress.memUsed - dropped + data.length
        direction := { d with
          ooo := before ++ emplace seq data (after.dropWhile covered)
          oooBytes := d.oooBytes - dropped + data.length
          gapPending := true
          gapSinceMs := if d.gapPending then d.gapSinceMs else nowMs } }
  else { progress with evicted := true }

/-- Deliver bytes that start at `nextSeq`. -/
def deliver (data : List UInt8) (progress : Progress) : Progress :=
  { progress with
    hasData := true
    data := progress.data ++ data
    direction := { progress.direction with
      nextSeq := segEnd progress.direction.nextSeq data } }

def placeSegment (cfg : TcpConfig) (seq : UInt32) (data : List UInt8) (nowMs : UInt64)
    (progress : Progress) : Progress :=
  let nextSeq := progress.direction.nextSeq
  if seqLeq (segEnd seq data) nextSeq then progress
  else if seqLt seq nextSeq then deliver (data.drop (nextSeq - seq).toNat) progress
  else if seq = nextSeq then deliver data progress
  else bufferSegment cfg seq data nowMs progress

/-- A hole is skipped when it is old and still there. -/
def skipGap (cfg : TcpConfig) (nowMs : UInt64) (d : Direction) : Direction :=
  match d.ooo with
  | [] => d
  | (start, _) :: _ =>
      if d.gapPending ∧ cfg.gapTimeoutMs ≤ nowMs - d.gapSinceMs ∧ seqLt d.nextSeq start then
        { d with nextSeq := start, gapPending := false }
      else d

structure Drained where
  nextSeq : UInt32
  hasData : Bool
  data : List UInt8
  remaining : OooSegments
  freed : Nat
  deriving DecidableEq, Repr

/-- The loop over the buffered segments from the first one. -/
def drainOoo (nextSeq : UInt32) : OooSegments → Drained
  | [] => ⟨nextSeq, false, [], [], 0⟩
  | (start, held) :: rest =>
      if seqLeq start nextSeq then
        if seqLt nextSeq (segEnd start held) then
          let drained := drainOoo (segEnd start held) rest
          { drained with
            hasData := true
            data := held.drop (nextSeq - start).toNat ++ drained.data
            freed := held.length + drained.freed }
        else
          let drained := drainOoo nextSeq rest
          { drained with freed := held.length + drained.freed }
      else ⟨nextSeq, false, [], (start, held) :: rest, 0⟩

def drainSegments (progress : Progress) : Progress :=
  let d := progress.direction
  if d.ooo = [] then progress
  else
    let drained := drainOoo d.nextSeq d.ooo
    { progress with
      hasData := progress.hasData || drained.hasData
      data := progress.data ++ drained.data
      memUsed := progress.memUsed - drained.freed
      direction := { d with
        nextSeq := drained.nextSeq
        ooo := drained.remaining
        oooBytes := d.oooBytes - drained.freed
        gapPending := d.gapPending && !drained.remaining.isEmpty } }

/-- A segment's payload; one without payload touches nothing. -/
def addData (cfg : TcpConfig) (seq : UInt32) (data : List UInt8) (nowMs : UInt64)
    (progress : Progress) : Progress :=
  if data = [] then progress
  else
    let placed := placeSegment cfg seq data nowMs progress
    drainSegments { placed with direction := skipGap cfg nowMs placed.direction }

def hasFlag (flags flag : UInt8) : Bool := flags &&& flag != 0

/-- A direction starts with the first segment seen; a SYN takes one sequence number. -/
def initDirection (seq : UInt32) (flags : UInt8) (d : Direction) : Direction :=
  if d.initialized then d
  else { d with initialized := true, nextSeq := seq + if hasFlag flags tcpSyn then 1 else 0 }

/-- The first FIN takes one sequence number, wherever it stands. -/
def finDirection (flags : UInt8) (d : Direction) : Direction :=
  if hasFlag flags tcpFin && !d.finSeen then { d with finSeen := true, nextSeq := d.nextSeq + 1 }
  else d

end Segments

namespace TcpReassembly

variable (state : TcpReassembly)

def find (key : FlowKey) : Option TcpFlow :=
  (state.flows.find? fun entry => entry.1 = key).map Prod.snd

def touch (key : FlowKey) : TcpReassembly := { state with lru := state.lru.erase key ++ [key] }

def eraseFlow (key : FlowKey) : TcpReassembly :=
  let freed := match state.find key with
    | none => 0
    | some flow => (flow.dir false).oooBytes + (flow.dir true).oooBytes
  { flows := state.flows.filter fun entry => entry.1 ≠ key
    lru := state.lru.erase key
    memUsed := state.memUsed - freed }

def setFlow (key : FlowKey) (flow : TcpFlow) : TcpReassembly :=
  { state with flows := (state.flows.filter fun entry => entry.1 ≠ key) ++ [(key, flow)] }

/-- Evict the least recently used flows until a new one fits. -/
def makeRoom (maxFlows : Nat) (key : FlowKey) : (fuel : Nat) → TcpReassembly → TcpReassembly × Bool
  | 0, state => (state, false)
  | fuel + 1, state =>
      match state.lru with
      | [] => (state, false)
      | front :: _ =>
          if maxFlows ≤ state.flows.length ∧ front ≠ key then
            ((makeRoom maxFlows key fuel (state.eraseFlow front)).1, true)
          else (state, false)

/-- The state without the idle flows, and their number. -/
def expire (idleTimeoutMs nowMs : UInt64) : TcpReassembly × Nat :=
  let idle := state.flows.filter fun entry => idleTimeoutMs ≤ nowMs - entry.2.lastSeenMs
  (idle.foldl (fun state entry => state.eraseFlow entry.1) state, idle.length)

end TcpReassembly

def ParsedPacket.forward (pp : ParsedPacket) : Bool :=
  decide (pp.srcIp < pp.dstIp) || (decide (pp.srcIp = pp.dstIp) && decide (pp.srcPort ≤ pp.dstPort))

/-- The same key for both directions. -/
def ParsedPacket.flowKey (pp : ParsedPacket) : FlowKey :=
  if pp.forward then ⟨pp.srcIp, pp.dstIp, pp.srcPort, pp.dstPort⟩
  else ⟨pp.dstIp, pp.srcIp, pp.dstPort, pp.srcPort⟩

def TcpFlow.setDir (flow : TcpFlow) (reverse : Bool) (d : Direction) : TcpFlow :=
  { flow with dir := fun other => if other = reverse then d else flow.dir other }

/-- What the segment does to its direction, from the first flag to the last. -/
def segmentProgress (cfg : TcpConfig) (pp : ParsedPacket) (nowMs : UInt64) (d : Direction)
    (memUsed : Nat) : Progress :=
  let progress := addData cfg pp.tcpSeq pp.payload nowMs
    (.start (initDirection pp.tcpSeq pp.tcpFlags d) memUsed)
  { progress with direction := finDirection pp.tcpFlags progress.direction }

def addSegment (cfg : TcpConfig) (state : TcpReassembly) (pp : ParsedPacket) (nowMs : UInt64) :
    TcpReassembly × DeliverResult :=
  if pp.isTcp = false then (state, ⟨false, [], false, ⟨[], [], 0, 0⟩, false, false⟩)
  else
    let key := pp.flowKey
    let reverse := !pp.forward
    let (state, evicted) :=
      if (state.find key).isNone then state.makeRoom cfg.maxFlows key state.lru.length
      else (state, false)
    let flow := { (state.find key).getD .fresh with lastSeenMs := nowMs }
    let state := (state.setFlow key flow).touch key
    if hasFlag pp.tcpFlags tcpRst then
      (state.eraseFlow key, ⟨false, [], reverse, key, true, evicted⟩)
    else
      let progress := segmentProgress cfg pp nowMs (flow.dir reverse) state.memUsed
      let flow := flow.setDir reverse progress.direction
      let state := { state.setFlow key flow with memUsed := progress.memUsed }
      let closed := (flow.dir false).finSeen && (flow.dir true).finSeen
      (if closed then state.eraseFlow key else state,
        ⟨progress.hasData, progress.data, reverse, key, closed, evicted || progress.evicted⟩)

end Idsm.EthProbe
