import Idsm.EthProbe.Packet
import Idsm.Foundation.Ranges

/-! Reassembly of IP fragments, `ip_defrag.cpp`, and the part of `pipeline.cpp` that leads from
a frame to its transport layer. -/

set_option autoImplicit false

namespace Idsm.EthProbe

open Idsm.Foundation

def maxDatagramLen : Nat := 65535

structure FragKey where
  src : List UInt8
  dst : List UInt8
  id : UInt32
  proto : UInt8
  isV6 : Bool
  deriving DecidableEq, Repr

def ParsedPacket.fragKey (pp : ParsedPacket) : FragKey :=
  ⟨pp.srcIp, pp.dstIp, pp.fragId, pp.l4Proto, pp.isIpv6⟩

/-- `totalLen` is valid once the last fragment has come; `accounted` is what the memory pool
was charged with. -/
structure Datagram where
  buf : List UInt8
  covered : List (Nat × Nat)
  totalLen : Nat
  haveLast : Bool
  lastSeenMs : UInt64
  accounted : Nat
  deriving DecidableEq, Repr

def Datagram.fresh : Datagram := ⟨[], [], 0, false, 0, 0⟩

structure DefragConfig where
  maxDatagrams : Nat
  maxMemBytes : Nat
  timeoutMs : UInt64
  deriving DecidableEq, Repr

def DefragConfig.default : DefragConfig := ⟨256, 2 * 1024 * 1024, 10000⟩

/-- `lru` starts with the entry that was touched least recently. -/
structure IpDefrag where
  table : List (FragKey × Datagram)
  lru : List FragKey
  memUsed : Nat
  deriving DecidableEq, Repr

def IpDefrag.empty : IpDefrag := ⟨[], [], 0⟩

structure DefragResult where
  complete : Bool
  evicted : Bool
  datagram : List UInt8
  deriving DecidableEq, Repr

namespace Datagram

variable (dg : Datagram)

/-- The bytes by which a fragment extends the buffer. -/
def grow (off flen : Nat) : Nat := off + flen - dg.buf.length

def seen (nowMs : UInt64) : Datagram := { dg with lastSeenMs := nowMs }

/-- A fragment, which is the last one or not: only what is not covered yet is copied. -/
def put (off : Nat) (data : List UInt8) (more : Bool) : Datagram :=
  let grow := dg.grow off data.length
  { buf := fillGaps off data dg.covered (dg.buf ++ List.replicate grow 0)
    covered := mergeRange off (off + data.length) dg.covered
    totalLen := if more then dg.totalLen else off + data.length
    haveLast := !more || dg.haveLast
    lastSeenMs := dg.lastSeenMs
    accounted := dg.accounted + grow }

def complete : Bool :=
  dg.haveLast && match dg.covered with
    | [(0, reach)] => decide (dg.totalLen ≤ reach)
    | _ => false

end Datagram

namespace IpDefrag

variable (state : IpDefrag)

def find (key : FragKey) : Option Datagram :=
  (state.table.find? fun entry => entry.1 = key).map Prod.snd

def touch (key : FragKey) : IpDefrag := { state with lru := state.lru.erase key ++ [key] }

def setDatagram (key : FragKey) (dg : Datagram) : IpDefrag :=
  { state with table := (state.table.filter fun entry => entry.1 ≠ key) ++ [(key, dg)] }

def erase (key : FragKey) : IpDefrag where
  table := state.table.filter fun entry => entry.1 ≠ key
  lru := state.lru.erase key
  memUsed := state.memUsed - ((state.find key).map Datagram.accounted).getD 0

/-- Evict the front entry. -/
def evictOne : Option IpDefrag :=
  match state.lru with
  | [] => none
  | victim :: _ => some (state.erase victim)

/-- Room for a new entry; whether one was evicted. -/
def makeRoom (maxDatagrams : Nat) : (fuel : Nat) → IpDefrag → IpDefrag × Bool
  | 0, state => (state, false)
  | fuel + 1, state =>
      if maxDatagrams ≤ state.table.length then
        match state.evictOne with
        | none => (state, false)
        | some state => ((makeRoom maxDatagrams fuel state).1, true)
      else (state, false)

/-- Memory for an entry, which is not evicted itself. -/
def makeSpace (maxMemBytes : Nat) (key : FragKey) (grow : Nat) :
    (fuel : Nat) → IpDefrag → IpDefrag × Bool
  | 0, state => (state, false)
  | fuel + 1, state =>
      if maxMemBytes < state.memUsed + grow ∧ state.lru.head? ≠ some key then
        match state.evictOne with
        | none => (state, false)
        | some state => ((makeSpace maxMemBytes key grow fuel state).1, true)
      else (state, false)

/-- The entry of a fragment is there, or there is room for it. -/
def openEntry (cfg : DefragConfig) (key : FragKey) : IpDefrag × Bool :=
  if (state.find key).isNone then state.makeRoom cfg.maxDatagrams state.lru.length
  else (state, false)

def openMemory (cfg : DefragConfig) (key : FragKey) (grow : Nat) : IpDefrag × Bool :=
  if 0 < grow then state.makeSpace cfg.maxMemBytes key grow state.lru.length else (state, false)

/-- The fragment goes into its datagram; when it still does not fit it is skipped, with a fresh
entry. -/
def feedDatagram (cfg : DefragConfig) (key : FragKey) (dg : Datagram) (off : Nat)
    (data : List UInt8) (more evicted : Bool) : IpDefrag × DefragResult :=
  let grow := dg.grow off data.length
  if 0 < grow ∧ cfg.maxMemBytes < state.memUsed + grow then
    (if dg.accounted = 0 then state.erase key else state, ⟨false, evicted, []⟩)
  else
    let dg := dg.put off data more
    let state := { state.setDatagram key dg with memUsed := state.memUsed + grow }
    if dg.complete then (state.erase key, ⟨true, evicted, dg.buf.take dg.totalLen⟩)
    else (state, ⟨false, evicted, []⟩)

/-- The state without the entries that made no progress, and their number. -/
def expire (timeoutMs nowMs : UInt64) : IpDefrag × Nat :=
  let old := state.table.filter fun entry => timeoutMs ≤ nowMs - entry.2.lastSeenMs
  (old.foldl (fun state entry => state.erase entry.1) state, old.length)

end IpDefrag

/-- How much of a fragment is taken; lengths are 32-bit numbers. -/
def fragLen (off length : Nat) : Nat :=
  let flen := length % 2 ^ 32
  if maxDatagramLen < (off + flen) % 2 ^ 32 then maxDatagramLen - off else flen

def addFragment (cfg : DefragConfig) (state : IpDefrag) (pp : ParsedPacket)
    (fragPayload : List UInt8) (nowMs : UInt64) : IpDefrag × DefragResult :=
  if fragPayload = [] ∨ maxDatagramLen ≤ pp.fragOffset then (state, ⟨false, false, []⟩)
  else
    let data := fragPayload.take (fragLen pp.fragOffset fragPayload.length)
    let key := pp.fragKey
    let (state, evicted) := state.openEntry cfg key
    let dg := ((state.find key).getD .fresh).seen nowMs
    let state := (state.setDatagram key dg).touch key
    let (state, forced) := state.openMemory cfg key (dg.grow pp.fragOffset data.length)
    state.feedDatagram cfg key dg pp.fragOffset data pp.fragMore (evicted || forced)

section Pipeline

def reassAlertDefragEvict : UInt32 := 1

/-- What the frame path does: an alert of the reassembly, or a packet for the transport layer. -/
inductive FrameCall where
  | reassemblyAlert (pp : ParsedPacket) (aux : UInt32)
  | handleL4 (pp : ParsedPacket)
  deriving DecidableEq, Repr

/-- The addresses are the fragment's, the rest is parsed from the reassembled bytes. -/
def reassembledPacket (frag : ParsedPacket) (datagram : List UInt8) : ParsedPacket :=
  parseL4Only frag.l4Proto datagram
    { ParsedPacket.empty with
      srcMac := frag.srcMac
      dstMac := frag.dstMac
      isIpv4 := frag.isIpv4
      isIpv6 := frag.isIpv6
      srcIp := frag.srcIp
      dstIp := frag.dstIp
      l4Proto := frag.l4Proto
      l4Data := datagram }

def handleFragment (cfg : DefragConfig) (state : IpDefrag) (pp : ParsedPacket) (nowMs : UInt64) :
    IpDefrag × List FrameCall :=
  if pp.l4Data = [] then (state, [])
  else
    let (state, res) := addFragment cfg state pp pp.l4Data nowMs
    (state,
      (if res.evicted then [.reassemblyAlert pp reassAlertDefragEvict] else []) ++
        if res.complete then [.handleL4 (reassembledPacket pp res.datagram)] else [])

/-- A frame, without the detectors that see single packets. `trusted` is the verdict of the
configured sources on an address and its version. -/
def feedFrame (cfg : DefragConfig) (trusted : List UInt8 → Bool → Bool) (state : IpDefrag)
    (data : List UInt8) (nowMs : UInt64) : IpDefrag × List FrameCall :=
  match parsePacket data with
  | none => (state, [])
  | some pp =>
      if (pp.isIpv4 ∨ pp.isIpv6) ∧ trusted pp.srcIp pp.isIpv6 then (state, [])
      else if pp.isArp then (state, [])
      else if ¬ pp.isIpv4 ∧ ¬ pp.isIpv6 then (state, [])
      else if pp.isFragment then handleFragment cfg state pp nowMs
      else (state, [.handleL4 pp])

end Pipeline

end Idsm.EthProbe
