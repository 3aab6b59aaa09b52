import Idsm.EthProbe.ConnectionReuseProperties
import Idsm.Foundation.Pool

/-! What the flow table buffers, and what its counters are charged, over any sequence of segments
and expiries. -/

set_option autoImplicit false

namespace Idsm.EthProbe.StreamPool

open Idsm.Foundation

section Segments

variable {cfg : TcpConfig} {seq nextSeq : UInt32} {data : List UInt8} {nowMs : UInt64}

/-- What a list of segments takes off a counter. -/
def releaseSegments (segments : OooSegments) : List Pool.Entry :=
  segments.map fun segment => .release segment.2.length

/-- The later segments that a new one covers go before it is charged. -/
def bufferEntries (cfg : TcpConfig) (seq : UInt32) (data : List UInt8) (progress : Progress) :
    List Pool.Entry :=
  let d := progress.direction
  if d.oooBytes + data.length ≤ cfg.maxStreamBytes ∧
      progress.memUsed + data.length ≤ cfg.maxMemBytes then
    let before := d.ooo.takeWhile fun segment => decide (segment.1 < seq)
    let after := d.ooo.dropWhile fun segment => decide (segment.1 < seq)
    if dominated before after seq data then []
    else
      releaseSegments (after.takeWhile fun segment =>
        seqLeq (segEnd segment.1 segment.2) (segEnd seq data)) ++ [.charge data.length]
  else []

def placeEntries (cfg : TcpConfig) (seq : UInt32) (data : List UInt8) (progress : Progress) :
    List Pool.Entry :=
  let nextSeq := progress.direction.nextSeq
  if seqLeq (segEnd seq data) nextSeq then []
  else if seqLt seq nextSeq then []
  else if seq = nextSeq then []
  else bufferEntries cfg seq data progress

/-- Each segment that the drain takes is given back. -/
def drainEntries (nextSeq : UInt32) : OooSegments → List Pool.Entry
  | [] => []
  | (start, held) :: rest =>
      if seqLeq start nextSeq then
        .release held.length ::
          drainEntries (if seqLt nextSeq (segEnd start held) then segEnd start held else nextSeq)
            rest
      else []

/-- Every change of the two counters by one segment, in the order of the source. -/
def dataEntries (cfg : TcpConfig) (seq : UInt32) (data : List UInt8) (nowMs : UInt64)
    (progress : Progress) : List Pool.Entry :=
  if data = [] then []
  else
    let placed := placeSegment cfg seq data nowMs progress
    let d := skipGap cfg nowMs placed.direction
    placeEntries cfg seq data progress ++ drainEntries d.nextSeq d.ooo

/-- The segments are in the order of their keys and not empty, and the counter is their size. -/
structure Held (cfg : TcpConfig) (d : Direction) : Prop where
  sorted : d.ooo.Pairwise fun earlier later => earlier.1 < later.1
  filled : ∀ segment ∈ d.ooo, segment.2 ≠ []
  counted : d.oooBytes = oooSize d.ooo
  within : d.oooBytes ≤ cfg.maxStreamBytes

theorem held_fresh (cfg : TcpConfig) : Held cfg .fresh where
  sorted := .nil
  filled _ member := nomatch member
  counted := rfl
  within := Nat.zero_le _

/-- What is charged to the direction is charged to the pool. -/
structure Kept (cfg : TcpConfig) (progress : Progress) : Prop where
  held : Held cfg progress.direction
  part : progress.direction.oooBytes ≤ progress.memUsed
  within : progress.memUsed ≤ cfg.maxMemBytes

/-- What happens to one counter happens to the other. -/
structure Charged (cfg : TcpConfig) (progress : Progress) (entries : List Pool.Entry)
    (after : Progress) : Prop where
  kept : Kept cfg after
  direction : Pool.Settles cfg.maxStreamBytes progress.direction.oooBytes entries
    after.direction.oooBytes
  pool : Pool.Settles cfg.maxMemBytes progress.memUsed entries after.memUsed
  difference : after.memUsed + progress.direction.oooBytes =
    progress.memUsed + after.direction.oooBytes

variable {progress middle after : Progress} {first second : List Pool.Entry}

theorem Charged.trans (charged : Charged cfg progress first middle)
    (later : Charged cfg middle second after) : Charged cfg progress (first ++ second) after where
  kept := later.kept
  direction := charged.direction.append later.direction
  pool := charged.pool.append later.pool
  difference := by
    have one := charged.difference
    have two := later.difference
    omega

/-- Nothing but the counters and the segments matters. -/
theorem Kept.same (kept : Kept cfg progress) (ooo : after.direction.ooo = progress.direction.ooo)
    (oooBytes : after.direction.oooBytes = progress.direction.oooBytes)
    (memUsed : after.memUsed = progress.memUsed) : Charged cfg progress [] after where
  kept :=
    { held :=
        { sorted := ooo ▸ kept.held.sorted
          filled := ooo ▸ kept.held.filled
          counted := (oooBytes.trans kept.held.counted).trans (congrArg oooSize ooo.symm)
          within := oooBytes ▸ kept.held.within }
      part := oooBytes ▸ memUsed ▸ kept.part
      within := memUsed ▸ kept.within }
  direction := oooBytes ▸ .done _
  pool := memUsed ▸ .done _
  difference := by rw [oooBytes, memUsed]

theorem oooSize_append (front back : OooSegments) :
    oooSize (front ++ back) = oooSize front + oooSize back := by
  rw [oooSize, List.map_append, List.sum_append]
  rfl

theorem settles_releaseSegments (cap : Nat) {counter : Nat} {segments : OooSegments}
    (there : oooSize segments ≤ counter) :
    Pool.Settles cap counter (releaseSegments segments) (counter - oooSize segments) := by
  have released : Pool.Settles cap counter _ _ := Pool.Settles.releases there
  rw [List.map_map] at released
  exact released

/-- Some of the segments leave, and both counters with them. -/
theorem Kept.releases {gone : OooSegments} (kept : Kept cfg progress)
    (sorted : after.direction.ooo.Pairwise fun earlier later => earlier.1 < later.1)
    (filled : ∀ segment ∈ after.direction.ooo, segment.2 ≠ [])
    (size : oooSize gone + oooSize after.direction.ooo = oooSize progress.direction.ooo)
    (oooBytes : after.direction.oooBytes = progress.direction.oooBytes - oooSize gone)
    (memUsed : after.memUsed = progress.memUsed - oooSize gone) :
    Charged cfg progress (releaseSegments gone) after := by
  have counted := kept.held.counted
  have part := kept.part
  have bounded := kept.held.within
  have below := kept.within
  exact
    { kept := ⟨⟨sorted, filled, by omega, by omega⟩, by omega, by omega⟩
      direction := oooBytes ▸ settles_releaseSegments _ (by omega)
      pool := memUsed ▸ settles_releaseSegments _ (by omega)
      difference := by omega }

/-- A segment comes in that fits, and both counters grow. -/
theorem Kept.charges (kept : Kept cfg progress)
    (sorted : after.direction.ooo.Pairwise fun earlier later => earlier.1 < later.1)
    (filled : ∀ segment ∈ after.direction.ooo, segment.2 ≠ [])
    (size : oooSize after.direction.ooo = oooSize progress.direction.ooo + data.length)
    (oooBytes : after.direction.oooBytes = progress.direction.oooBytes + data.length)
    (memUsed : after.memUsed = progress.memUsed + data.length)
    (stream : progress.direction.oooBytes + data.length ≤ cfg.maxStreamBytes)
    (pool : progress.memUsed + data.length ≤ cfg.maxMemBytes) :
    Charged cfg progress [.charge data.length] after := by
  have counted := kept.held.counted
  have part := kept.part
  exact
    { kept := ⟨⟨sorted, filled, by omega, by omega⟩, by omega, by omega⟩
      direction := oooBytes ▸ .one_charge stream
      pool := memUsed ▸ .one_charge pool
      difference := by omega }

section Buffering

/-- Of two numbers one is not past the other. -/
theorem seqLeq_of_not {a b : UInt32} (past : seqLeq a b = false) : seqLeq b a = true := by
  have zero : (0 : Int32).toInt = 0 := rfl
  have turned : b - a = -(a - b) := by grind
  rw [seqLeq, decide_eq_false_iff_not, Int32.le_iff_toInt_le, zero] at past
  rw [seqLeq, decide_eq_true_eq, Int32.le_iff_toInt_le, zero, turned]
  change ¬ (a - b).toBitVec.toInt ≤ 0 at past
  change (-(a - b)).toBitVec.toInt ≤ 0
  have below := BitVec.toInt_lt (x := (a - b).toBitVec)
  rw [UInt32.toBitVec_neg, BitVec.toInt_neg, Int.bmod_def]
  split <;> omega

variable {segments before after : OooSegments}

theorem sorted_ge_of_dropWhile (sorted : segments.Pairwise fun earlier later => earlier.1 < later.1)
    (here : segments.dropWhile (fun segment => decide (segment.1 < seq)) = after) :
    ∀ segment ∈ after, seq ≤ segment.1 := by
  subst here
  induction segments with
  | nil => exact fun _ member => nomatch member
  | cons first rest ih =>
      rw [List.pairwise_cons] at sorted
      by_cases early : first.1 < seq
      · rw [List.dropWhile_cons_of_pos (by simpa using early)]
        exact ih sorted.2
      · rw [List.dropWhile_cons_of_neg (by simpa using early)]
        rw [UInt32.not_lt] at early
        intro segment member
        cases List.mem_cons.1 member with
        | inl same => exact same ▸ early
        | inr later => exact UInt32.le_trans early (UInt32.le_of_lt (sorted.1 segment later))

/-- A segment with the same start that is not as long is covered, so none is left there. -/
theorem past_of_not_dominated (sorted : after.Pairwise fun earlier later => earlier.1 < later.1)
    (from_seq : ∀ segment ∈ after, seq ≤ segment.1)
    (free : dominated before after seq data = false) :
    ∀ segment ∈ after.dropWhile fun segment =>
        seqLeq (segEnd segment.1 segment.2) (segEnd seq data),
      seq < segment.1 := by
  cases after with
  | nil => exact fun _ member => nomatch member
  | cons first rest =>
      obtain ⟨start, held⟩ := first
      rw [List.pairwise_cons] at sorted
      have reaches := from_seq _ List.mem_cons_self
      by_cases same : start = seq
      · subst same
        rw [dominated, Bool.or_eq_false_iff] at free
        have longer := free.1
        rw [beq_self_eq_true, Bool.true_and] at longer
        rw [List.dropWhile_cons_of_pos (by exact seqLeq_of_not longer)]
        intro segment member
        exact sorted.1 segment ((List.dropWhile_sublist _).mem member)
      · have past : seq < start := UInt32.lt_of_le_of_ne reaches (Ne.symm same)
        intro segment member
        cases List.mem_cons.1 ((List.dropWhile_sublist _).mem member) with
        | inl first => exact first ▸ past
        | inr later => exact UInt32.lt_trans past (sorted.1 segment later)

theorem emplace_of_past (past : ∀ segment ∈ segments, seq < segment.1) :
    emplace seq data segments = (seq, data) :: segments := by
  cases segments with
  | nil => rfl
  | cons first rest =>
      have other : first.1 ≠ seq := (UInt32.ne_of_lt (past first List.mem_cons_self)).symm
      rw [emplace, if_neg other]

theorem Kept.buffers (kept : Kept cfg progress) (something : data ≠ []) :
    Charged cfg progress (bufferEntries cfg seq data progress)
      (bufferSegment cfg seq data nowMs progress) := by
  rw [bufferEntries, bufferSegment]
  dsimp only
  by_cases fits : progress.direction.oooBytes + data.length ≤ cfg.maxStreamBytes ∧
      progress.memUsed + data.length ≤ cfg.maxMemBytes
  · rw [if_pos fits, if_pos fits]
    have sorted := kept.held.sorted
    have filled := kept.held.filled
    have counted := kept.held.counted
    have parted := List.takeWhile_append_dropWhile
      (p := fun segment : UInt32 × List UInt8 => decide (segment.1 < seq))
      (l := progress.direction.ooo)
    have early : ∀ segment ∈ progress.direction.ooo.takeWhile
        fun segment => decide (segment.1 < seq), segment.1 < seq :=
      fun segment member => by simpa using List.mem_takeWhile_imp member
    have late : ∀ segment ∈ progress.direction.ooo.dropWhile
        fun segment => decide (segment.1 < seq), seq ≤ segment.1 :=
      sorted_ge_of_dropWhile sorted rfl
    generalize progress.direction.ooo.takeWhile (fun segment => decide (segment.1 < seq)) = before
      at parted early ⊢
    generalize progress.direction.ooo.dropWhile (fun segment => decide (segment.1 < seq)) = after
      at parted late ⊢
    rw [← parted, List.pairwise_append] at sorted
    rw [← parted] at filled counted
    cases dominates : dominated before after seq data with
    | true =>
        rw [if_pos rfl, if_pos rfl]
        exact kept.same rfl rfl rfl
    | false =>
        rw [if_neg Bool.false_ne_true, if_neg Bool.false_ne_true]
        have past := past_of_not_dominated sorted.2.1 late dominates
        have left := List.dropWhile_sublist (l := after) fun segment : UInt32 × List UInt8 =>
          seqLeq (segEnd segment.1 segment.2) (segEnd seq data)
        have divided := List.takeWhile_append_dropWhile
          (p := fun segment : UInt32 × List UInt8 =>
            seqLeq (segEnd segment.1 segment.2) (segEnd seq data)) (l := after)
        generalize after.takeWhile (fun segment =>
          seqLeq (segEnd segment.1 segment.2) (segEnd seq data)) = gone at divided ⊢
        generalize after.dropWhile (fun segment =>
          seqLeq (segEnd segment.1 segment.2) (segEnd seq data)) = rest at divided past left ⊢
        have size : oooSize gone + oooSize (before ++ rest) = oooSize progress.direction.ooo := by
          rw [← parted, ← divided, oooSize_append, oooSize_append, oooSize_append]
          omega
        have fewer := sorted.2.1.sublist left
        have apart : ∀ segment ∈ before, ∀ other ∈ rest, segment.1 < other.1 :=
          fun segment first other second => sorted.2.2 segment first other (left.mem second)
        have kept_filled : ∀ segment ∈ before ++ rest, segment.2 ≠ [] := by
          intro segment member
          cases List.mem_append.1 member with
          | inl first => exact filled segment (List.mem_append_left _ first)
          | inr second => exact filled segment (List.mem_append_right _ (left.mem second))
        -- first the covered segments go, then the new one comes in between
        have released : Charged cfg progress (releaseSegments gone)
            { progress with
              memUsed := progress.memUsed - oooSize gone
              direction := { progress.direction with
                ooo := before ++ rest
                oooBytes := progress.direction.oooBytes - oooSize gone } } :=
          kept.releases (List.pairwise_append.2 ⟨sorted.1, fewer, apart⟩) kept_filled size rfl rfl
        rw [emplace_of_past past]
        apply released.trans
        apply released.kept.charges
        · rw [List.pairwise_append, List.pairwise_cons]
          refine ⟨sorted.1, ⟨past, fewer⟩, ?_⟩
          intro segment first other second
          cases List.mem_cons.1 second with
          | inl same => exact same ▸ early segment first
          | inr later => exact apart segment first other later
        · intro segment member
          cases List.mem_append.1 member with
          | inl first => exact kept_filled segment (List.mem_append_left _ first)
          | inr second =>
              cases List.mem_cons.1 second with
              | inl same => exact same ▸ something
              | inr later => exact kept_filled segment (List.mem_append_right _ later)
        · have joined : oooSize (before ++ (seq, data) :: rest) =
              oooSize before + (data.length + oooSize rest) := oooSize_append _ _
          rw [joined, oooSize_append]
          omega
        · rfl
        · rfl
        · exact Nat.le_trans (Nat.add_le_add_right (Nat.sub_le _ _) _) fits.1
        · exact Nat.le_trans (Nat.add_le_add_right (Nat.sub_le _ _) _) fits.2
  · rw [if_neg fits, if_neg fits]
    exact kept.same rfl rfl rfl

end Buffering

theorem Kept.places (kept : Kept cfg progress) (something : data ≠ []) :
    Charged cfg progress (placeEntries cfg seq data progress)
      (placeSegment cfg seq data nowMs progress) := by
  rw [placeEntries, placeSegment]
  by_cases old : seqLeq (segEnd seq data) progress.direction.nextSeq
  · rw [if_pos old, if_pos old]
    exact kept.same rfl rfl rfl
  · rw [if_neg old, if_neg old]
    by_cases overlaps : seqLt seq progress.direction.nextSeq
    · rw [if_pos overlaps, if_pos overlaps]
      exact kept.same rfl rfl rfl
    · rw [if_neg overlaps, if_neg overlaps]
      by_cases joins : seq = progress.direction.nextSeq
      · rw [if_pos joins, if_pos joins]
        exact kept.same rfl rfl rfl
      · rw [if_neg joins, if_neg joins]
        exact kept.buffers something

theorem Kept.skips (kept : Kept cfg progress) :
    Charged cfg progress []
      { progress with direction := skipGap cfg nowMs progress.direction } := by
  have untouched : (skipGap cfg nowMs progress.direction).ooo = progress.direction.ooo ∧
      (skipGap cfg nowMs progress.direction).oooBytes = progress.direction.oooBytes := by
    unfold skipGap
    split
    · exact ⟨rfl, rfl⟩
    · split <;> exact ⟨rfl, rfl⟩
  exact kept.same untouched.1 untouched.2 rfl

/-- The drain takes segments from the front, and counts what it takes. -/
theorem drainOoo_front (segments : OooSegments) :
    ∃ front, segments = front ++ (drainOoo nextSeq segments).remaining ∧
      (drainOoo nextSeq segments).freed = oooSize front ∧
      drainEntries nextSeq segments = releaseSegments front := by
  induction segments generalizing nextSeq with
  | nil => exact ⟨[], rfl, rfl, rfl⟩
  | cons first rest ih =>
      obtain ⟨start, held⟩ := first
      rw [drainOoo, drainEntries]
      cases started : seqLeq start nextSeq with
      | false =>
          rw [if_neg Bool.false_ne_true, if_neg Bool.false_ne_true]
          exact ⟨[], rfl, rfl, rfl⟩
      | true =>
          rw [if_pos rfl, if_pos rfl]
          cases more : seqLt nextSeq (segEnd start held) with
          | true =>
              obtain ⟨front, split, freed, entries⟩ := @ih (segEnd start held)
              rw [if_pos rfl, if_pos rfl, entries]
              exact ⟨(start, held) :: front, congrArg _ split, congrArg _ freed, rfl⟩
          | false =>
              obtain ⟨front, split, freed, entries⟩ := @ih nextSeq
              rw [if_neg Bool.false_ne_true, if_neg Bool.false_ne_true, entries]
              exact ⟨(start, held) :: front, congrArg _ split, congrArg _ freed, rfl⟩

theorem Kept.drains (kept : Kept cfg progress) :
    Charged cfg progress (drainEntries progress.direction.nextSeq progress.direction.ooo)
      (drainSegments progress) := by
  rw [drainSegments]
  by_cases nothing : progress.direction.ooo = []
  · rw [if_pos nothing, nothing]
    exact kept.same rfl rfl rfl
  · rw [if_neg nothing]
    obtain ⟨front, split, freed, entries⟩ :=
      @drainOoo_front progress.direction.nextSeq progress.direction.ooo
    have left := List.sublist_append_right front
      (drainOoo progress.direction.nextSeq progress.direction.ooo).remaining
    rw [← split] at left
    rw [entries]
    refine kept.releases (kept.held.sorted.sublist left)
      (fun segment member => kept.held.filled segment (left.mem member)) ?_
      (congrArg _ freed) (congrArg _ freed)
    rw [← oooSize_append, ← split]

/-- A segment takes off both counters what it drains and what it covers, and adds itself. -/
theorem Kept.adds (kept : Kept cfg progress) :
    Charged cfg progress (dataEntries cfg seq data nowMs progress)
      (addData cfg seq data nowMs progress) := by
  rw [dataEntries, addData]
  by_cases nothing : data = []
  · rw [if_pos nothing, if_pos nothing]
    exact kept.same rfl rfl rfl
  · rw [if_neg nothing, if_neg nothing]
    have placed := @Kept.places cfg seq data nowMs progress kept nothing
    have skipped := @Kept.skips cfg nowMs _ placed.kept
    exact placed.trans (skipped.trans skipped.kept.drains)

/-- What one segment does to both counters, from the first flag to the last. -/
def segmentEntries (cfg : TcpConfig) (pp : ParsedPacket) (nowMs : UInt64) (d : Direction)
    (memUsed : Nat) : List Pool.Entry :=
  dataEntries cfg pp.tcpSeq pp.payload nowMs
    (.start (initDirection pp.tcpSeq pp.tcpFlags d) memUsed)

theorem Kept.segment {d : Direction} {memUsed : Nat} (kept : Kept cfg (.start d memUsed))
    (pp : ParsedPacket) :
    Charged cfg (.start d memUsed) (segmentEntries cfg pp nowMs d memUsed)
      (segmentProgress cfg pp nowMs d memUsed) := by
  have opened : (initDirection pp.tcpSeq pp.tcpFlags d).ooo = d.ooo ∧
      (initDirection pp.tcpSeq pp.tcpFlags d).oooBytes = d.oooBytes := by
    unfold initDirection
    split <;> exact ⟨rfl, rfl⟩
  have ended : ∀ d : Direction, (finDirection pp.tcpFlags d).ooo = d.ooo ∧
      (finDirection pp.tcpFlags d).oooBytes = d.oooBytes := by
    intro d
    unfold finDirection
    split <;> exact ⟨rfl, rfl⟩
  have begun : Charged cfg (.start d memUsed) []
      (.start (initDirection pp.tcpSeq pp.tcpFlags d) memUsed) :=
    kept.same opened.1 opened.2 rfl
  have added := @Kept.adds cfg pp.tcpSeq pp.payload nowMs _ begun.kept
  have finished : Charged cfg _ [] (segmentProgress cfg pp nowMs d memUsed) :=
    added.kept.same (ended _).1 (ended _).2 rfl
  have whole := begun.trans (added.trans finished)
  rw [List.append_nil] at whole
  exact whole

end Segments

section Flows

def flowBytes (flow : TcpFlow) : Nat := (flow.dir false).oooBytes + (flow.dir true).oooBytes

def releaseAt (state : TcpReassembly) (key : FlowKey) : Pool.Entry :=
  .release (Pool.weightAt flowBytes state.flows key)

/-- What the evictions of `makeRoom` take off the counter. -/
def roomEntries (cfg : TcpConfig) (key : FlowKey) : (fuel : Nat) → TcpReassembly → List Pool.Entry
  | 0, _ => []
  | fuel + 1, state =>
      match state.lru with
      | [] => []
      | front :: _ =>
          if cfg.maxFlows ≤ state.flows.length ∧ front ≠ key then
            releaseAt state front :: roomEntries cfg key fuel (state.eraseFlow front)
          else []

def eraseEntries : List (FlowKey × TcpFlow) → TcpReassembly → List Pool.Entry
  | [], _ => []
  | entry :: rest, state => releaseAt state entry.1 :: eraseEntries rest (state.eraseFlow entry.1)

/-- The flow of a segment that has its place in the table, until it is reset or closed. -/
def storeEntries (cfg : TcpConfig) (pp : ParsedPacket) (nowMs : UInt64) (reverse : Bool)
    (flow : TcpFlow) (memUsed : Nat) : List Pool.Entry :=
  if hasFlag pp.tcpFlags tcpRst then [.release (flowBytes flow)]
  else
    let progress := segmentProgress cfg pp nowMs (flow.dir reverse) memUsed
    let fed := flow.setDir reverse progress.direction
    segmentEntries cfg pp nowMs (flow.dir reverse) memUsed ++
      if (fed.dir false).finSeen && (fed.dir true).finSeen then [.release (flowBytes fed)] else []

/-- Every change of the pool's counter in one step, in the order of the source. -/
def entries (cfg : TcpConfig) (state : TcpReassembly) : TcpEvent → List Pool.Entry
  | .segment pp nowMs =>
      if pp.isTcp = false then []
      else
        let roomy := (withRoom cfg state pp.flowKey).1
        let flow := { (roomy.find pp.flowKey).getD .fresh with lastSeenMs := nowMs }
        (if (state.find pp.flowKey).isNone then roomEntries cfg pp.flowKey state.lru.length state
          else []) ++
          storeEntries cfg pp nowMs (!pp.forward) flow roomy.memUsed
  | .expire nowMs =>
      eraseEntries
        (state.flows.filter fun entry => cfg.idleTimeoutMs ≤ nowMs - entry.2.lastSeenMs) state

def step (cfg : TcpConfig) (state : TcpReassembly) : TcpEvent → TcpReassembly
  | .segment pp nowMs => (addSegment cfg state pp nowMs).1
  | .expire nowMs => (state.expire cfg.idleTimeoutMs nowMs).1

/-- The pool is right, and each direction of each flow is. -/
structure Accounted (cfg : TcpConfig) (state : TcpReassembly) : Prop where
  account : Pool.Account flowBytes cfg.maxMemBytes (max 1 cfg.maxFlows) state.flows state.lru
    state.memUsed
  held : ∀ entry ∈ state.flows, ∀ reverse, Held cfg (entry.2.dir reverse)

theorem accounted_empty (cfg : TcpConfig) : Accounted cfg .empty where
  account := .empty
  held _ member := nomatch member

structure Moves (cfg : TcpConfig) (state : TcpReassembly) (entries : List Pool.Entry)
    (after : TcpReassembly) : Prop where
  accounted : Accounted cfg after
  settles : Pool.Settles cfg.maxMemBytes state.memUsed entries after.memUsed

variable {cfg : TcpConfig} {state middle after : TcpReassembly} {key : FlowKey} {flow : TcpFlow}
  {first second : List Pool.Entry} {pp : ParsedPacket} {nowMs : UInt64}

theorem Moves.trans (moved : Moves cfg state first middle) (later : Moves cfg middle second after) :
    Moves cfg state (first ++ second) after where
  accounted := later.accounted
  settles := moved.settles.append later.settles

theorem Accounted.stays (accounted : Accounted cfg state) : Moves cfg state [] state where
  accounted := accounted
  settles := .done _

theorem eraseFlow_memUsed (state : TcpReassembly) (key : FlowKey) :
    (state.eraseFlow key).memUsed =
      state.memUsed - Pool.weightAt flowBytes state.flows key := by
  have weight : Pool.weightAt flowBytes state.flows key =
      ((state.find key).map flowBytes).getD 0 := rfl
  rw [weight, TcpReassembly.eraseFlow]
  cases state.find key <;> rfl

theorem Accounted.erases (accounted : Accounted cfg state) (key : FlowKey) :
    Moves cfg state [releaseAt state key] (state.eraseFlow key) where
  settles := by
    rw [eraseFlow_memUsed]
    exact .one_release (accounted.account.releasable key)
  accounted :=
    { account := by
        rw [eraseFlow_memUsed]
        exact accounted.account.erase key
      held := fun entry member => accounted.held entry (List.mem_filter.1 member).1 }

theorem Accounted.front_apart {front : FlowKey} {rest : List FlowKey}
    (accounted : Accounted cfg state) (order : state.lru = front :: rest)
    (absent : state.find key = none) : front ≠ key := by
  intro same
  have listed : front ∈ Pool.keys state.flows := by
    apply accounted.account.listed.order.mem_iff.1
    rw [order]
    exact List.mem_cons_self
  exact Pool.lookup_eq_none.1 absent (same ▸ listed)

/-- The loop of evictions ends with room for a flow. -/
theorem Accounted.makesRoom {fuel : Nat} (accounted : Accounted cfg state)
    (enough : state.lru.length ≤ fuel) (absent : state.find key = none) :
    Moves cfg state (roomEntries cfg key fuel state)
        (TcpReassembly.makeRoom cfg.maxFlows key fuel state).1 ∧
      (TcpReassembly.makeRoom cfg.maxFlows key fuel state).1.flows.length < max 1 cfg.maxFlows := by
  have same := accounted.account.length
  induction fuel generalizing state with
  | zero => exact ⟨accounted.stays, by change state.flows.length < _; omega⟩
  | succ fuel ih =>
      rw [roomEntries, TcpReassembly.makeRoom]
      cases order : state.lru with
      | nil =>
          rw [order, List.length_nil] at same
          exact ⟨accounted.stays, by change state.flows.length < _; omega⟩
      | cons front rest =>
          dsimp only
          have apart := accounted.front_apart order absent
          by_cases full : cfg.maxFlows ≤ state.flows.length ∧ front ≠ key
          · rw [if_pos full, if_pos full]
            rw [order, List.length_cons] at enough
            have shorter : (state.eraseFlow front).lru = rest := by
              change state.lru.erase front = rest
              rw [order, List.erase_cons_head]
            have gone : (state.eraseFlow front).find key = none :=
              find_eraseFlow.trans ((if_neg apart).trans absent)
            have erased := accounted.erases front
            obtain ⟨moved, room⟩ := ih erased.accounted (by rw [shorter]; omega) gone
              erased.accounted.account.length
            exact ⟨erased.trans moved, room⟩
          · rw [if_neg full, if_neg full]
            refine ⟨accounted.stays, ?_⟩
            have room : ¬ cfg.maxFlows ≤ state.flows.length := fun many => full ⟨many, apart⟩
            change state.flows.length < _
            omega

theorem Accounted.opens (accounted : Accounted cfg state) :
    Moves cfg state
        (if (state.find key).isNone then roomEntries cfg key state.lru.length state else [])
        (withRoom cfg state key).1 ∧
      ((withRoom cfg state key).1.find key = none →
        (withRoom cfg state key).1.flows.length < max 1 cfg.maxFlows) := by
  rw [withRoom]
  cases found : state.find key with
  | none =>
      rw [Option.isNone_none, if_pos rfl, if_pos rfl]
      obtain ⟨moved, room⟩ := accounted.makesRoom (Nat.le_refl _) found
      exact ⟨moved, fun _ => room⟩
  | some flow =>
      rw [Option.isNone_some, if_neg Bool.false_ne_true, if_neg Bool.false_ne_true]
      refine ⟨accounted.stays, fun absent => ?_⟩
      rw [found] at absent
      cases absent

theorem weightAt_of_find (found : state.find key = some flow) :
    Pool.weightAt flowBytes state.flows key = flowBytes flow := by
  change ((state.find key).map flowBytes).getD 0 = flowBytes flow
  rw [found]
  rfl

theorem find_entered : ((state.setFlow key flow).touch key).find key = some flow := by
  rw [find_touch, find_setFlow, if_pos rfl]

theorem Accounted.held_setFlow (accounted : Accounted cfg state)
    (held : ∀ reverse, Held cfg (flow.dir reverse)) :
    ∀ entry ∈ (state.setFlow key flow).flows, ∀ reverse, Held cfg (entry.2.dir reverse) := by
  intro entry member
  cases List.mem_append.1 member with
  | inl old => exact accounted.held entry (List.mem_filter.1 old).1
  | inr new =>
      rw [List.mem_singleton.1 new]
      exact held

/-- The flow of a segment comes into the table or is touched; nothing is charged yet. -/
theorem Accounted.enters (accounted : Accounted cfg state)
    (room : state.find key = none → state.flows.length < max 1 cfg.maxFlows)
    (seen : flow = { (state.find key).getD .fresh with lastSeenMs := nowMs }) :
    Accounted cfg ((state.setFlow key flow).touch key) ∧
      ∀ reverse, Held cfg (flow.dir reverse) := by
  have same : flowBytes flow = Pool.weightAt flowBytes state.flows key ∧
      ∀ reverse, Held cfg (flow.dir reverse) := by
    cases found : state.find key with
    | none =>
        rw [found] at seen
        change _ = ((state.find key).map flowBytes).getD 0 ∧ _
        rw [found, seen]
        exact ⟨rfl, fun _ => held_fresh cfg⟩
    | some before =>
        rw [found] at seen
        rw [weightAt_of_find found, seen]
        exact ⟨rfl, accounted.held (key, before) (Pool.mem_of_lookup found)⟩
  exact ⟨⟨accounted.account.use same.1 room, accounted.held_setFlow same.2⟩, same.2⟩

theorem flowBytes_setDir (reverse : Bool) (d : Direction) :
    flowBytes (flow.setDir reverse d) + (flow.dir reverse).oooBytes =
      flowBytes flow + d.oooBytes := by
  cases reverse with
  | false =>
      change d.oooBytes + (flow.dir true).oooBytes + (flow.dir false).oooBytes = flowBytes flow + _
      rw [flowBytes]
      omega
  | true =>
      change (flow.dir false).oooBytes + d.oooBytes + (flow.dir true).oooBytes = flowBytes flow + _
      rw [flowBytes]
      omega

theorem oooBytes_le_flowBytes (reverse : Bool) : (flow.dir reverse).oooBytes ≤ flowBytes flow := by
  cases reverse with
  | false => exact Nat.le_add_right _ _
  | true => exact Nat.le_add_left _ _

/-- A flow in the table is fed: what the direction gains or loses, the pool does. -/
theorem Accounted.feeds {reverse : Bool} (accounted : Accounted cfg state)
    (found : state.find key = some flow) (held : ∀ reverse, Held cfg (flow.dir reverse)) :
    Moves cfg state (segmentEntries cfg pp nowMs (flow.dir reverse) state.memUsed)
      { state.setFlow key (flow.setDir reverse
          (segmentProgress cfg pp nowMs (flow.dir reverse) state.memUsed).direction) with
        memUsed := (segmentProgress cfg pp nowMs (flow.dir reverse) state.memUsed).memUsed } := by
  have there := accounted.account.releasable key
  rw [weightAt_of_find found] at there
  have kept : Kept cfg (.start (flow.dir reverse) state.memUsed) :=
    ⟨held reverse, (oooBytes_le_flowBytes reverse).trans there, accounted.account.within⟩
  have charged := @Kept.segment cfg nowMs _ _ kept pp
  have difference : _ + (flow.dir reverse).oooBytes = state.memUsed + _ := charged.difference
  have bytes := @flowBytes_setDir flow reverse
    (segmentProgress cfg pp nowMs (flow.dir reverse) state.memUsed).direction
  have follows : (segmentProgress cfg pp nowMs (flow.dir reverse) state.memUsed).memUsed +
      flowBytes flow = state.memUsed + flowBytes (flow.setDir reverse
        (segmentProgress cfg pp nowMs (flow.dir reverse) state.memUsed).direction) := by
    omega
  refine ⟨⟨accounted.account.replace found follows charged.kept.within,
    accounted.held_setFlow ?_⟩, charged.pool⟩
  intro side
  change Held cfg (if side = reverse then _ else flow.dir side)
  by_cases fed : side = reverse
  · rw [if_pos fed]
    exact charged.kept.held
  · rw [if_neg fed]
    exact held side

theorem Accounted.stores {reverse evicted : Bool} (accounted : Accounted cfg state)
    (room : state.find key = none → state.flows.length < max 1 cfg.maxFlows)
    (seen : flow = { (state.find key).getD .fresh with lastSeenMs := nowMs }) :
    Moves cfg state (storeEntries cfg pp nowMs reverse flow state.memUsed)
      (storeSegment cfg pp nowMs key reverse flow state evicted).1 := by
  obtain ⟨entered, held⟩ := accounted.enters room seen
  rw [storeEntries, storeSegment]
  dsimp only
  by_cases reset : hasFlag pp.tcpFlags tcpRst
  · rw [if_pos reset, if_pos reset]
    have erased := entered.erases key
    rw [releaseAt, weightAt_of_find find_entered] at erased
    exact ⟨erased.accounted, erased.settles⟩
  · rw [if_neg reset, if_neg reset]
    have fed := @Accounted.feeds cfg _ key flow pp nowMs reverse entered find_entered held
    have untouched : ((state.setFlow key flow).touch key).memUsed = state.memUsed := rfl
    rw [untouched] at fed ⊢
    generalize segmentProgress cfg pp nowMs (flow.dir reverse) state.memUsed = progress at fed ⊢
    by_cases closed : ((flow.setDir reverse progress.direction).dir false).finSeen &&
        ((flow.setDir reverse progress.direction).dir true).finSeen
    · rw [if_pos closed, if_pos closed]
      have erased := fed.accounted.erases key
      have here := (@find_setFlow ((state.setFlow key flow).touch key) key key
        (flow.setDir reverse progress.direction)).trans (if_pos rfl)
      rw [releaseAt, weightAt_of_find here] at erased
      exact ⟨erased.accounted, fed.settles.append erased.settles⟩
    · rw [if_neg closed, if_neg closed, List.append_nil]
      exact ⟨fed.accounted, fed.settles⟩

theorem Accounted.expires {idle : List (FlowKey × TcpFlow)} (accounted : Accounted cfg state) :
    Moves cfg state (eraseEntries idle state)
      (idle.foldl (fun state entry => state.eraseFlow entry.1) state) := by
  induction idle generalizing state with
  | nil => exact accounted.stays
  | cons entry idle ih =>
      have erased := accounted.erases entry.1
      exact erased.trans (ih erased.accounted)

/-- One step keeps the account, and each change of the counter is covered. -/
theorem Accounted.step (accounted : Accounted cfg state) (event : TcpEvent) :
    Moves cfg state (entries cfg state event) (step cfg state event) := by
  cases event with
  | expire nowMs => exact accounted.expires
  | segment pp nowMs =>
      rw [StreamPool.step, entries]
      by_cases other : pp.isTcp = false
      · rw [if_pos other, addSegment_of_not_tcp other]
        exact accounted.stays
      · rw [if_neg other, addSegment_eq other]
        obtain ⟨opened, room⟩ := @Accounted.opens cfg state pp.flowKey accounted
        exact opened.trans (opened.accounted.stores room rfl)

/-- The direction of a segment, as the segment meets it. -/
def meets (cfg : TcpConfig) (state : TcpReassembly) (pp : ParsedPacket) : Direction :=
  (((withRoom cfg state pp.flowKey).1.find pp.flowKey).getD .fresh).dir (!pp.forward)

/-- What a segment charges its direction for fits it, and what it takes off was there. -/
def DirectionSettles (cfg : TcpConfig) (state : TcpReassembly) (pp : ParsedPacket)
    (nowMs : UInt64) : Prop :=
  let d := meets cfg state pp
  let memUsed := (withRoom cfg state pp.flowKey).1.memUsed
  Pool.Settles cfg.maxStreamBytes d.oooBytes (segmentEntries cfg pp nowMs d memUsed)
    (segmentProgress cfg pp nowMs d memUsed).direction.oooBytes

theorem Accounted.directionSettles (accounted : Accounted cfg state) :
    DirectionSettles cfg state pp nowMs := by
  obtain ⟨opened, room⟩ := @Accounted.opens cfg state pp.flowKey accounted
  have kept : Kept cfg (.start (meets cfg state pp) (withRoom cfg state pp.flowKey).1.memUsed) := by
    unfold meets
    cases found : (withRoom cfg state pp.flowKey).1.find pp.flowKey with
    | none => exact ⟨held_fresh cfg, Nat.zero_le _, opened.accounted.account.within⟩
    | some flow =>
        have there := opened.accounted.account.releasable pp.flowKey
        rw [weightAt_of_find found] at there
        exact ⟨opened.accounted.held _ (Pool.mem_of_lookup found) _,
          (oooBytes_le_flowBytes _).trans there, opened.accounted.account.within⟩
  exact (kept.segment pp).direction

/-- The state after any segments and expiries. -/
def runAfter (cfg : TcpConfig) (events : List TcpEvent) : TcpReassembly :=
  events.foldl (step cfg) .empty

theorem runAfter_concat (cfg : TcpConfig) (events : List TcpEvent) (event : TcpEvent) :
    runAfter cfg (events ++ [event]) = step cfg (runAfter cfg events) event := by
  rw [runAfter, List.foldl_append, List.foldl_cons, List.foldl_nil]
  rfl

theorem accounted_after (cfg : TcpConfig) (events : List TcpEvent) :
    Accounted cfg (runAfter cfg events) := by
  induction events using List.reverseRecOn with
  | nil => exact accounted_empty cfg
  | append_singleton events event ih =>
      rw [runAfter_concat]
      exact (ih.step event).accounted

/-- In every reachable state the account is right, and the next step charges the counters within
their caps and takes off them only what is there. -/
theorem stream_resources (cfg : TcpConfig) (events : List TcpEvent) :
    Accounted cfg (runAfter cfg events) ∧
      (∀ event, Pool.Settles cfg.maxMemBytes (runAfter cfg events).memUsed
        (entries cfg (runAfter cfg events) event) (runAfter cfg (events ++ [event])).memUsed) ∧
      ∀ pp nowMs, DirectionSettles cfg (runAfter cfg events) pp nowMs := by
  have accounted := accounted_after cfg events
  refine ⟨accounted, fun event => ?_, fun pp nowMs => accounted.directionSettles⟩
  rw [runAfter_concat]
  exact (accounted.step event).settles

end Flows

end Idsm.EthProbe.StreamPool
