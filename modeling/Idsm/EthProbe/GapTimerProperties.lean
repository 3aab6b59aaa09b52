import Idsm.EthProbe.ConnectionReuseProperties

/-! The timer of the hole that a direction waits behind, against the arrival of the segments
that are buffered beyond it. -/

set_option autoImplicit false

namespace Idsm.EthProbe

open Idsm.Foundation

/-- A segment that was buffered: where it starts and when it came. -/
structure Buffered where
  start : UInt32
  timeMs : UInt64
  deriving DecidableEq, Repr

/-- The arrivals that do not lie behind a number. -/
def beyond (number : UInt32) (arrivals : List Buffered) : List Buffered :=
  arrivals.filter fun arrival => !seqLt arrival.start number

def sinceMs (arrivals : List Buffered) : Option UInt64 := arrivals.head?.map Buffered.timeMs

section Placing

variable (cfg : TcpConfig) (seq : UInt32) (data : List UInt8) (nowMs : UInt64)
  (progress : Progress) (arrivals : List Buffered)

/-- The segment lies past a hole, and is buffered. -/
def taken : Bool :=
  !seqLeq (segEnd seq data) progress.direction.nextSeq &&
    !seqLt seq progress.direction.nextSeq && decide (seq ≠ progress.direction.nextSeq) &&
    decide (progress.direction.oooBytes + data.length ≤ cfg.maxStreamBytes ∧
      progress.memUsed + data.length ≤ cfg.maxMemBytes) &&
    !dominated (progress.direction.ooo.takeWhile fun segment => decide (segment.1 < seq))
      (progress.direction.ooo.dropWhile fun segment => decide (segment.1 < seq)) seq data

/-- What is expected and what is buffered with the segment. -/
def expectedWith : UInt32 :=
  if seqLeq (segEnd seq data) progress.direction.nextSeq then progress.direction.nextSeq
  else if seqLt seq progress.direction.nextSeq ∨ seq = progress.direction.nextSeq then
    segEnd seq data
  else progress.direction.nextSeq

def heldWith : OooSegments :=
  if taken cfg seq data progress then
    (progress.direction.ooo.takeWhile fun segment => decide (segment.1 < seq)) ++
      emplace seq data ((progress.direction.ooo.dropWhile fun segment =>
        decide (segment.1 < seq)).dropWhile fun segment =>
          seqLeq (segEnd segment.1 segment.2) (segEnd seq data))
  else progress.direction.ooo

def arrivalsWith : List Buffered :=
  if taken cfg seq data progress then arrivals ++ [⟨seq, nowMs⟩] else arrivals

end Placing

/-- Something is buffered, past a hole. -/
def HoleAt (number : UInt32) (held : OooSegments) : Prop :=
  ∃ first ∈ held.head?, seqLt number first.1 = true

instance (number : UInt32) (held : OooSegments) : Decidable (HoleAt number held) :=
  decidable_of_iff (held.head?.any fun first => seqLt number first.1) (by
    unfold HoleAt
    cases held.head? <;> simp)

/-- The hole is at least as old as the timeout. -/
def Expired (cfg : TcpConfig) (nowMs : UInt64) (arrivals : List Buffered) : Prop :=
  ∃ since ∈ sinceMs arrivals, since.toNat + cfg.gapTimeoutMs.toNat ≤ nowMs.toNat

instance (cfg : TcpConfig) (nowMs : UInt64) (arrivals : List Buffered) :
    Decidable (Expired cfg nowMs arrivals) :=
  decidable_of_iff ((sinceMs arrivals).any fun since =>
      decide (since.toNat + cfg.gapTimeoutMs.toNat ≤ nowMs.toNat)) (by
    unfold Expired
    cases sinceMs arrivals <;> simp)

/-- No hole is left among the segments from a number on. -/
def Joined (number : UInt32) : OooSegments → Prop
  | [] => True
  | (start, held) :: rest =>
      seqLeq start number = true ∧
        Joined (if seqLt number (segEnd start held) then segEnd start held else number) rest

/-- The end of the segments that join on to a number. -/
def reach (number : UInt32) : OooSegments → UInt32
  | [] => number
  | (start, held) :: rest =>
      if seqLeq start number then
        reach (if seqLt number (segEnd start held) then segEnd start held else number) rest
      else number

instance decidableJoined : (number : UInt32) → (held : OooSegments) → Decidable (Joined number held)
  | _, [] => .isTrue trivial
  | number, (start, held) :: rest =>
      let := decidableJoined (if seqLt number (segEnd start held) then segEnd start held else number)
        rest
      inferInstanceAs (Decidable (_ = true ∧ Joined _ rest))

/-- A reassembly with the arrivals of one direction that lie beyond its hole, oldest first. -/
structure GapWatch where
  tcp : TcpReassembly
  arrivals : List Buffered

def GapWatch.initial : GapWatch := ⟨.empty, []⟩

/-- The direction as a segment meets it. -/
def Side.meets (side : Side) (cfg : TcpConfig) (state : TcpReassembly) (pp : ParsedPacket) :
    Progress :=
  .start (initDirection pp.tcpSeq pp.tcpFlags (side.direction state))
    (withRoom cfg state side.flow).1.memUsed

def Side.seesData (side : Side) (pp : ParsedPacket) : Bool :=
  side.sees pp && !pp.payload.isEmpty && !hasFlag pp.tcpFlags tcpRst

/-- The arrivals that lie beyond the hole which is left. -/
def GapWatch.note (watch : GapWatch) (cfg : TcpConfig) (side : Side) (tcp : TcpReassembly) :
    TcpEvent → List Buffered
  | .segment packet nowMs =>
      if (side.direction tcp).ooo = [] then []
      else if side.seesData packet then
        let met := side.meets cfg watch.tcp packet
        beyond (addData cfg packet.tcpSeq packet.payload nowMs met).direction.nextSeq
          (arrivalsWith cfg packet.tcpSeq packet.payload nowMs met watch.arrivals)
      else watch.arrivals
  | .expire _ => if (side.direction tcp).ooo = [] then [] else watch.arrivals

def gapStep (cfg : TcpConfig) (side : Side) (watch : GapWatch) : TcpEvent → Option GapWatch
  | .segment packet nowMs =>
      let tcp := (addSegment cfg watch.tcp packet nowMs).1
      some ⟨tcp, watch.note cfg side tcp (.segment packet nowMs)⟩
  | .expire nowMs =>
      let tcp := (watch.tcp.expire cfg.idleTimeoutMs nowMs).1
      some ⟨tcp, watch.note cfg side tcp (.expire nowMs)⟩

/-- The flag stands for buffered data, the timer for the first of the arrivals. -/
structure Timed (d : Direction) (arrivals : List Buffered) : Prop where
  pending : d.gapPending = true ↔ d.ooo ≠ []
  since : d.ooo ≠ [] → sinceMs arrivals = some d.gapSinceMs

/-- Once its segment is placed, a hole is skipped exactly when it is old enough. -/
def SkipsWhenOld (cfg : TcpConfig) (nowMs : UInt64) (placed : Direction)
    (arrivals : List Buffered) : Prop :=
  (skipGap cfg nowMs placed).nextSeq ≠ placed.nextSeq ↔
    HoleAt placed.nextSeq placed.ooo ∧ Expired cfg nowMs (beyond placed.nextSeq arrivals)

/-- What the timer promises of a data segment. -/
def TimesGaps (cfg : TcpConfig) (side : Side) (transition : Transition GapWatch TcpEvent) : Prop :=
  match transition.event with
  | .segment packet nowMs => side.seesData packet = true →
      let met := side.meets cfg transition.before.tcp packet
      Timed (side.direction transition.after.tcp) transition.after.arrivals ∧
        SkipsWhenOld cfg nowMs (placeSegment cfg packet.tcpSeq packet.payload nowMs met).direction
          (arrivalsWith cfg packet.tcpSeq packet.payload nowMs met transition.before.arrivals)
  | .expire _ => True

/-- While there is a hole, the clock has not gone back behind it, and the oldest arrival stays
beyond it. The hole that is skipped is the last one; a hole that is filled is the last one, or
the next one is as old. -/
structure KeepsTimer (cfg : TcpConfig) (nowMs : UInt64) (number : UInt32) (held : OooSegments)
    (arrivals : List Buffered) : Prop where
  clock : HoleAt number held → ∀ since ∈ sinceMs arrivals, since ≤ nowMs
  stays : HoleAt number held → sinceMs (beyond number arrivals) = sinceMs arrivals
  skipped : HoleAt number held → Expired cfg nowMs arrivals →
    ∀ first ∈ held.head?, Joined first.1 held
  filled : ¬ (HoleAt number held ∧ Expired cfg nowMs arrivals) →
    Joined number held ∨ sinceMs (beyond (reach number held) arrivals) = sinceMs arrivals

def ClosesLastHole (cfg : TcpConfig) (side : Side) (watch : GapWatch) : TcpEvent → Prop
  | .segment packet nowMs => side.seesData packet = true →
      let met := side.meets cfg watch.tcp packet
      KeepsTimer cfg nowMs (expectedWith packet.tcpSeq packet.payload met)
        (heldWith cfg packet.tcpSeq packet.payload met)
        (arrivalsWith cfg packet.tcpSeq packet.payload nowMs met watch.arrivals)
  | .expire _ => True

section Segment

variable {cfg : TcpConfig} {seq : UInt32} {data : List UInt8} {nowMs : UInt64}
  {progress : Progress} {arrivals : List Buffered}

theorem drainOoo_nextSeq {number : UInt32} {held : OooSegments} :
    (drainOoo number held).nextSeq = reach number held := by
  induction held generalizing number with
  | nil => rfl
  | cons first rest ih =>
      obtain ⟨start, bytes⟩ := first
      unfold drainOoo reach
      split
      · split
        · exact ih
        · exact ih
      · rfl

theorem drainOoo_remaining {number : UInt32} {held : OooSegments} :
    (drainOoo number held).remaining = [] ↔ Joined number held := by
  induction held generalizing number with
  | nil => exact iff_of_true rfl trivial
  | cons first rest ih =>
      obtain ⟨start, bytes⟩ := first
      unfold drainOoo Joined
      split
      next joins =>
        rw [and_iff_right joins]
        split
        · exact ih
        · exact ih
      next apart => exact iff_of_false (List.cons_ne_nil _ _) fun joins => apart joins.1

/-- Where a segment leaves its direction. -/
structure PlacedAs (cfg : TcpConfig) (seq : UInt32) (data : List UInt8) (nowMs : UInt64)
    (progress : Progress) (d : Direction) : Prop where
  nextSeq : d.nextSeq = expectedWith seq data progress
  ooo : d.ooo = heldWith cfg seq data progress
  pending : d.gapPending = (progress.direction.gapPending || taken cfg seq data progress)
  since : d.gapSinceMs =
    if taken cfg seq data progress && !progress.direction.gapPending then nowMs
    else progress.direction.gapSinceMs

theorem bufferSegment_placed
    (past : seqLeq (segEnd seq data) progress.direction.nextSeq = false)
    (ahead : seqLt seq progress.direction.nextSeq = false) (apart : seq ≠ progress.direction.nextSeq) :
    PlacedAs cfg seq data nowMs progress (bufferSegment cfg seq data nowMs progress).direction := by
  have number : progress.direction.nextSeq = expectedWith seq data progress := by
    unfold expectedWith
    rw [past, ahead]
    simp [apart]
  unfold bufferSegment
  dsimp only
  split
  next room =>
    cases known : dominated
        (progress.direction.ooo.takeWhile fun segment => decide (segment.1 < seq))
        (progress.direction.ooo.dropWhile fun segment => decide (segment.1 < seq)) seq data with
    | true =>
        have left : taken cfg seq data progress = false := by
          unfold taken
          rw [known, Bool.not_true, Bool.and_false]
        exact ⟨number, by simp [heldWith, left], by simp [left], by simp [left]⟩
    | false =>
        have here : taken cfg seq data progress = true := by
          unfold taken
          rw [known, past, ahead]
          simp [apart, room]
        refine ⟨number, by simp [heldWith, here], by simp [here], ?_⟩
        cases progress.direction.gapPending <;> simp [here]
  next full =>
    have left : taken cfg seq data progress = false := by
      unfold taken
      rw [decide_eq_false full, Bool.and_false, Bool.false_and]
    exact ⟨number, by simp [heldWith, left], by simp [left], by simp [left]⟩

/-- What a segment that overlaps the delivered bytes adds ends where the segment does. -/
theorem segEnd_trimmed {number : UInt32} (past : seqLeq (segEnd seq data) number = false)
    (behind : seqLt seq number = true) :
    segEnd number (data.drop (number - seq).toNat) = segEnd seq data := by
  have bound : (number - seq).toNat < 2 ^ 32 := UInt32.toNat_lt _
  have seqStart : seq = serial seq 0 := (UInt32.add_zero seq).symm
  have numberAt : number = serial seq (number - seq).toNat := by
    unfold serial
    rw [UInt32.ofNat_toNat]
    grind
  generalize (number - seq).toNat = ahead at bound numberAt ⊢
  have ends : segEnd seq data = serial seq data.length := rfl
  rw [ends, numberAt] at past
  nth_rewrite 1 [seqStart] at behind
  rw [numberAt] at behind
  unfold seqLeq at past
  unfold seqLt at behind
  have zero : (0 : Int32).toInt = 0 := rfl
  rw [decide_eq_false_iff_not, Int32.le_iff_toInt_le, serial_distance, zero, Int.bmod_def] at past
  rw [decide_eq_true_eq, Int32.lt_iff_toInt_lt, serial_distance, zero, Int.bmod_def] at behind
  have long : ahead ≤ data.length := by
    split at past <;> split at behind <;> omega
  rw [ends, numberAt, segEnd, serial_add, List.length_drop, Nat.add_sub_cancel' long]

theorem placeSegment_placed :
    PlacedAs cfg seq data nowMs progress (placeSegment cfg seq data nowMs progress).direction := by
  have delivered : ∀ {after : Direction}, taken cfg seq data progress = false →
      after.nextSeq = expectedWith seq data progress → after.ooo = progress.direction.ooo →
      after.gapPending = progress.direction.gapPending →
      after.gapSinceMs = progress.direction.gapSinceMs →
        PlacedAs cfg seq data nowMs progress after := by
    intro after left number ooo pending since
    exact ⟨number, by simp [heldWith, left, ooo], by simp [left, pending], by simp [left, since]⟩
  unfold placeSegment
  dsimp only
  cases past : seqLeq (segEnd seq data) progress.direction.nextSeq with
  | true => exact delivered (by simp [taken, past]) (by simp [expectedWith, past]) rfl rfl rfl
  | false =>
      cases behind : seqLt seq progress.direction.nextSeq with
      | true =>
          have number : expectedWith seq data progress = segEnd seq data := by
            simp [expectedWith, past, behind]
          exact delivered (by simp [taken, behind])
            ((segEnd_trimmed past behind).trans number.symm) rfl rfl rfl
      | false =>
          by_cases level : seq = progress.direction.nextSeq
          · rw [if_neg Bool.false_ne_true, if_neg Bool.false_ne_true, if_pos level]
            refine delivered (by simp [taken, level]) ?_ rfl rfl rfl
            unfold expectedWith
            rw [past, if_neg Bool.false_ne_true, if_pos (.inr level)]
            exact congrArg (segEnd · data) level.symm
          · rw [if_neg Bool.false_ne_true, if_neg Bool.false_ne_true, if_neg level]
            exact bufferSegment_placed past behind level

/-- What is buffered is timed, and without it there are no arrivals. -/
structure Watched (d : Direction) (arrivals : List Buffered) : Prop where
  timed : Timed d arrivals
  none_held : d.ooo = [] → arrivals = []

theorem Watched.placed {d : Direction} (watched : Watched progress.direction arrivals)
    (placed : PlacedAs cfg seq data nowMs progress d) :
    Watched d (arrivalsWith cfg seq data nowMs progress arrivals) := by
  cases here : taken cfg seq data progress with
  | false =>
      have ooo : d.ooo = progress.direction.ooo := by
        rw [placed.ooo, heldWith, here, if_neg Bool.false_ne_true]
      have pending : d.gapPending = progress.direction.gapPending := by
        rw [placed.pending, here, Bool.or_false]
      have since : d.gapSinceMs = progress.direction.gapSinceMs := by
        rw [placed.since, here, Bool.false_and, if_neg Bool.false_ne_true]
      rw [arrivalsWith, here, if_neg Bool.false_ne_true]
      refine ⟨⟨?_, ?_⟩, ?_⟩
      · rw [pending, ooo]
        exact watched.timed.pending
      · rw [ooo, since]
        exact watched.timed.since
      · rw [ooo]
        exact watched.none_held
  | true =>
      have ooo : d.ooo ≠ [] := by
        rw [placed.ooo, heldWith, here, if_pos rfl]
        unfold emplace
        split
        · simp
        · split <;> simp
      have pending : d.gapPending = true := by
        rw [placed.pending, here, Bool.or_true]
      refine ⟨⟨iff_of_true pending ooo, fun _ => ?_⟩, fun nothing => absurd nothing ooo⟩
      rw [arrivalsWith, here, if_pos rfl, placed.since, here, Bool.true_and]
      cases waits : progress.direction.gapPending with
      | true =>
          have held := watched.timed.pending.1 waits
          have since := watched.timed.since held
          unfold sinceMs at since ⊢
          cases arrivals with
          | nil => cases since
          | cons first rest => exact since
      | false =>
          have nothing : progress.direction.ooo = [] := by
            by_contra held
            rw [watched.timed.pending.2 held] at waits
            cases waits
          rw [watched.none_held nothing]
          rfl

theorem old_iff {since : UInt64} (onward : since ≤ nowMs) :
    cfg.gapTimeoutMs ≤ nowMs - since ↔ since.toNat + cfg.gapTimeoutMs.toNat ≤ nowMs.toNat := by
  have before := UInt64.le_iff_toNat_le.mp onward
  rw [UInt64.le_iff_toNat_le, UInt64.toNat_sub_of_le _ _ onward]
  omega

/-- The hole is skipped, or the direction waits on. -/
inductive SkipOutcome (cfg : TcpConfig) (nowMs : UInt64) (d : Direction)
    (arrivals : List Buffered) : Prop where
  | skips (first : UInt32 × List UInt8) (rest : OooSegments) (held : d.ooo = first :: rest)
      (hole : HoleAt d.nextSeq d.ooo) (expired : Expired cfg nowMs arrivals)
      (apart : first.1 ≠ d.nextSeq)
      (skipped : skipGap cfg nowMs d = { d with nextSeq := first.1, gapPending := false })
  | waits (young : ¬ (HoleAt d.nextSeq d.ooo ∧ Expired cfg nowMs arrivals))
      (same : skipGap cfg nowMs d = d)

theorem Watched.skips {d : Direction} (watched : Watched d arrivals)
    (clock : HoleAt d.nextSeq d.ooo → ∀ since ∈ sinceMs arrivals, since ≤ nowMs) :
    SkipOutcome cfg nowMs d arrivals := by
  cases held : d.ooo with
  | nil =>
      refine .waits ?_ (by rw [skipGap, held])
      rw [held]
      exact fun ⟨⟨_, absent, _⟩, _⟩ => by cases absent
  | cons first rest =>
      obtain ⟨start, bytes⟩ := first
      have waiting : d.ooo ≠ [] := by simp [held]
      have since := watched.timed.since waiting
      have pending := watched.timed.pending.2 waiting
      cases ahead : seqLt d.nextSeq start with
      | false =>
          refine .waits ?_ ?_
          · rw [held]
            rintro ⟨⟨_, here, hole⟩, _⟩
            cases here
            rw [ahead] at hole
            cases hole
          · rw [skipGap, held]
            exact if_neg fun both => by simp [ahead] at both
      | true =>
          have hole : HoleAt d.nextSeq d.ooo := by
            rw [held]
            exact ⟨_, rfl, ahead⟩
          have old := @old_iff cfg nowMs _ (clock hole _ since)
          by_cases expired : cfg.gapTimeoutMs ≤ nowMs - d.gapSinceMs
          · refine .skips _ rest held hole ⟨_, since, old.mp expired⟩ ?_ ?_
            · rintro rfl
              simp [seqLt] at ahead
            · rw [skipGap, held]
              exact if_pos ⟨pending, expired, ahead⟩
          · refine .waits ?_ ?_
            · rintro ⟨_, other, found, late⟩
              rw [since] at found
              cases found
              exact expired (old.mpr late)
            · rw [skipGap, held]
              exact if_neg fun all => expired all.2.1

/-- The arrivals that the processing of a data segment leaves beyond its hole. -/
def arrivalsLeft (after : Direction) (arrivals : List Buffered) : List Buffered :=
  if after.ooo = [] then [] else beyond after.nextSeq arrivals

theorem watched_of_nothing {d : Direction} (nothing : d.ooo = []) (still : d.gapPending = false) :
    Watched d (arrivalsLeft d arrivals) := by
  unfold arrivalsLeft
  rw [if_pos nothing]
  refine ⟨⟨?_, fun held => absurd nothing held⟩, fun _ => rfl⟩
  rw [still]
  exact iff_of_false Bool.false_ne_true fun held => held nothing

/-- What draining does to a direction that still holds something. -/
theorem drainSegments_fields (held : progress.direction.ooo ≠ []) :
    let drained := drainOoo progress.direction.nextSeq progress.direction.ooo
    (drainSegments progress).direction.nextSeq = drained.nextSeq ∧
      (drainSegments progress).direction.ooo = drained.remaining ∧
      (drainSegments progress).direction.gapPending =
        (progress.direction.gapPending && !drained.remaining.isEmpty) ∧
      (drainSegments progress).direction.gapSinceMs = progress.direction.gapSinceMs := by
  unfold drainSegments
  dsimp only
  rw [if_neg held]
  exact ⟨rfl, rfl, rfl, rfl⟩

theorem drainSegments_joined (watched : progress.direction.ooo = [] → progress.direction.gapPending = false)
    (joined : Joined progress.direction.nextSeq progress.direction.ooo) :
    (drainSegments progress).direction.ooo = [] ∧
      (drainSegments progress).direction.gapPending = false := by
  by_cases held : progress.direction.ooo = []
  · unfold drainSegments
    dsimp only
    rw [if_pos held]
    exact ⟨held, watched held⟩
  · obtain ⟨_, ooo, pending, _⟩ := drainSegments_fields held
    have none := drainOoo_remaining.2 joined
    rw [none] at ooo pending
    exact ⟨ooo, by rw [pending, List.isEmpty_nil, Bool.not_true, Bool.and_false]⟩

theorem Watched.drained (watched : Watched progress.direction arrivals)
    (filled : Joined progress.direction.nextSeq progress.direction.ooo ∨
      sinceMs (beyond (reach progress.direction.nextSeq progress.direction.ooo) arrivals) =
        sinceMs arrivals) :
    Watched (drainSegments progress).direction
      (arrivalsLeft (drainSegments progress).direction arrivals) := by
  have still : progress.direction.ooo = [] → progress.direction.gapPending = false := by
    intro nothing
    by_contra pending
    exact watched.timed.pending.1 (eq_true_of_ne_false pending) nothing
  by_cases joined : Joined progress.direction.nextSeq progress.direction.ooo
  · obtain ⟨nothing, off⟩ := drainSegments_joined still joined
    exact watched_of_nothing nothing off
  · have held : progress.direction.ooo ≠ [] := by
      intro nothing
      rw [nothing] at joined
      exact joined trivial
    have same := filled.resolve_left joined
    obtain ⟨number, ooo, pending, since⟩ := drainSegments_fields held
    rw [drainOoo_nextSeq] at number
    have left : (drainSegments progress).direction.ooo ≠ [] := by
      rw [ooo]
      exact fun none => joined (drainOoo_remaining.1 none)
    unfold arrivalsLeft
    rw [if_neg left, number]
    refine ⟨⟨iff_of_true ?_ left, fun _ => ?_⟩, fun nothing => absurd nothing left⟩
    · rw [pending, watched.timed.pending.2 held, Bool.true_and, Bool.not_eq_true', ← ooo]
      exact List.isEmpty_eq_false_iff.mpr left
    · rw [same, since]
      exact watched.timed.since held

/-- One data segment, before the end that its flags may set. -/
theorem addData_watched (filled : data ≠ []) (watched : Watched progress.direction arrivals)
    (keeps : KeepsTimer cfg nowMs (expectedWith seq data progress) (heldWith cfg seq data progress)
      (arrivalsWith cfg seq data nowMs progress arrivals)) :
    Watched (addData cfg seq data nowMs progress).direction
        (arrivalsLeft (addData cfg seq data nowMs progress).direction
          (arrivalsWith cfg seq data nowMs progress arrivals)) ∧
      SkipsWhenOld cfg nowMs (placeSegment cfg seq data nowMs progress).direction
        (arrivalsWith cfg seq data nowMs progress arrivals) := by
  have placed := @placeSegment_placed cfg seq data nowMs progress
  have settled := watched.placed placed
  unfold addData
  rw [if_neg filled]
  dsimp only
  rw [← placed.nextSeq, ← placed.ooo] at keeps
  generalize placeSegment cfg seq data nowMs progress = after at placed settled keeps ⊢
  generalize arrivalsWith cfg seq data nowMs progress arrivals = known at settled keeps ⊢
  unfold SkipsWhenOld
  cases @Watched.skips cfg nowMs _ _ settled keeps.clock with
  | skips first rest held hole expired apart skipped =>
      rw [skipped]
      have joined := keeps.skipped hole expired first (by rw [held]; rfl)
      have drained := @drainSegments_joined
        { after with direction := { after.direction with nextSeq := first.1, gapPending := false } }
        (fun _ => rfl) joined
      refine ⟨watched_of_nothing drained.1 drained.2, iff_of_true apart ⟨hole, ?_⟩⟩
      unfold Expired
      rw [keeps.stays hole]
      exact expired
  | waits young same =>
      rw [same]
      refine ⟨settled.drained (keeps.filled young), iff_of_false (fun other => other rfl) ?_⟩
      rintro ⟨hole, expired⟩
      unfold Expired at expired
      rw [keeps.stays hole] at expired
      exact young ⟨hole, expired⟩

end Segment

section Run

variable {cfg : TcpConfig} {side : Side} {state : TcpReassembly} {pp : ParsedPacket}
  {nowMs : UInt64} {d after : Direction} {arrivals : List Buffered}

theorem Watched.same (watched : Watched d arrivals) (ooo : after.ooo = d.ooo)
    (pending : after.gapPending = d.gapPending) (since : after.gapSinceMs = d.gapSinceMs) :
    Watched after arrivals := by
  refine ⟨⟨?_, ?_⟩, ?_⟩
  · rw [pending, ooo]
    exact watched.timed.pending
  · rw [ooo, since]
    exact watched.timed.since
  · rw [ooo]
    exact watched.none_held

theorem Watched.initialized (watched : Watched d arrivals) (seq : UInt32) (flags : UInt8) :
    Watched (initDirection seq flags d) arrivals := by
  unfold initDirection
  split
  · exact watched
  · exact watched.same rfl rfl rfl

theorem Watched.finished (watched : Watched d arrivals) (flags : UInt8) :
    Watched (finDirection flags d) arrivals := by
  unfold finDirection
  split
  · exact watched.same rfl rfl rfl
  · exact watched

theorem watched_fresh : Watched .fresh [] :=
  ⟨⟨iff_of_false Bool.false_ne_true fun held => held rfl, fun held => absurd rfl held⟩, fun _ => rfl⟩

/-- A packet that the direction sees goes through it, unless its flow ends. -/
theorem addSegment_meets (seen : side.sees pp = true) (going : hasFlag pp.tcpFlags tcpRst = false) :
    (addSegment cfg state pp nowMs).2.data =
        (addData cfg pp.tcpSeq pp.payload nowMs (side.meets cfg state pp)).data ∧
      (side.direction (addSegment cfg state pp nowMs).1 =
          finDirection pp.tcpFlags
            (addData cfg pp.tcpSeq pp.payload nowMs (side.meets cfg state pp)).direction ∨
        side.direction (addSegment cfg state pp nowMs).1 = .fresh) := by
  obtain ⟨tcp, same, across⟩ := sees_iff.1 seen
  rw [addSegment_eq (by rw [tcp]; exact Bool.true_eq_false.mp), same, across, find_withRoom]
  unfold storeSegment Side.direction directionFor
  dsimp only
  rw [going, if_neg Bool.false_ne_true]
  refine ⟨rfl, ?_⟩
  dsimp only
  split
  · refine .inr ?_
    rw [find_eraseFlow, if_pos rfl]
    rfl
  · refine .inl ((congrArg (fun found => (Option.getD found TcpFlow.fresh).dir side.reverse)
      ((find_setFlow _).trans (if_pos rfl))).trans ?_)
    exact setDir_dir _ _

/-- A reset ends the flow. -/
theorem addSegment_resets (seen : side.sees pp = true) (reset : hasFlag pp.tcpFlags tcpRst = true) :
    (addSegment cfg state pp nowMs).2.data = [] ∧
      side.direction (addSegment cfg state pp nowMs).1 = .fresh := by
  obtain ⟨tcp, same, across⟩ := sees_iff.1 seen
  rw [addSegment_eq (by rw [tcp]; exact Bool.true_eq_false.mp), same]
  unfold storeSegment Side.direction directionFor
  dsimp only
  rw [reset, if_pos rfl]
  refine ⟨rfl, ?_⟩
  rw [find_eraseFlow, if_pos rfl]
  rfl

theorem Watched.other {noted : List Buffered} (watched : Watched d arrivals)
    (kept : after = d ∨ after = .fresh)
    (same : noted = if after.ooo = [] then [] else arrivals) : Watched after noted := by
  rw [same]
  rcases kept with rfl | rfl
  · split
    next nothing =>
      rw [← watched.none_held nothing]
      exact watched
    next => exact watched
  · exact watched_fresh

/-- A packet without payload touches neither the buffer nor its timer. -/
theorem Watched.emptied (watched : Watched (side.direction state) arrivals)
    (seen : side.sees pp = true) (empty : pp.payload = []) :
    Watched (side.direction (addSegment cfg state pp nowMs).1)
      (if (side.direction (addSegment cfg state pp nowMs).1).ooo = [] then [] else arrivals) := by
  have through := (watched.initialized pp.tcpSeq pp.tcpFlags).finished pp.tcpFlags
  refine through.other ?_ rfl
  have outcome : SeenOutcome cfg side state pp nowMs := addSegment_seen seen
  cases outcome with
  | reset flag gone nothing => exact .inr gone
  | progressed memUsed found data hasData =>
      rw [(segmentProgress_of_empty empty).2.2] at found
      exact found

/-- What the direction does with a data segment. -/
theorem Watched.segment {met : Progress} {known : List Buffered} (data : pp.payload ≠ [])
    (watched : Watched met.direction arrivals)
    (keeps : KeepsTimer cfg nowMs (expectedWith pp.tcpSeq pp.payload met)
      (heldWith cfg pp.tcpSeq pp.payload met) known)
    (knows : known = arrivalsWith cfg pp.tcpSeq pp.payload nowMs met arrivals)
    (goes : after = finDirection pp.tcpFlags (addData cfg pp.tcpSeq pp.payload nowMs met).direction ∨
      after = .fresh) :
    Watched after (if after.ooo = [] then []
        else beyond (addData cfg pp.tcpSeq pp.payload nowMs met).direction.nextSeq known) ∧
      SkipsWhenOld cfg nowMs (placeSegment cfg pp.tcpSeq pp.payload nowMs met).direction known := by
  subst knows
  obtain ⟨left, skips⟩ := addData_watched data watched keeps
  refine ⟨?_, skips⟩
  rcases goes with rfl | rfl
  · rw [finDirection_ooo]
    exact left.finished pp.tcpFlags
  · exact watched_fresh

/-- What a run keeps, and what its data segments show. -/
theorem gapStep_watched {watch later : GapWatch} {event : TcpEvent}
    (watched : Watched (side.direction watch.tcp) watch.arrivals)
    (closes : ClosesLastHole cfg side watch event) (here : gapStep cfg side watch event = some later) :
    Watched (side.direction later.tcp) later.arrivals ∧ TimesGaps cfg side ⟨watch, event, later⟩ := by
  cases event with
  | expire nowMs =>
      obtain rfl := Option.some.inj here
      exact ⟨watched.other expire_kept rfl, trivial⟩
  | segment packet nowMs =>
      obtain rfl := Option.some.inj here
      cases seen : side.sees packet with
      | false =>
          have blind : side.seesData packet = false := by
            rw [Side.seesData, seen, Bool.false_and, Bool.false_and]
          refine ⟨watched.other (addSegment_kept seen) ?_, fun data => ?_⟩
          · rw [GapWatch.note, blind, if_neg Bool.false_ne_true]
          · rw [blind] at data
            cases data
      | true =>
          cases data : side.seesData packet with
          | false =>
              refine ⟨?_, fun other => ?_⟩
              · rw [GapWatch.note, data, if_neg Bool.false_ne_true]
                cases reset : hasFlag packet.tcpFlags tcpRst with
                | true => exact watched.other (.inr (addSegment_resets seen reset).2) rfl
                | false =>
                    have empty : packet.payload = [] := by
                      rw [Side.seesData, seen, reset] at data
                      simpa using data
                    exact watched.emptied seen empty
              · rw [data] at other
                cases other
          | true =>
              obtain ⟨filled, going⟩ : packet.payload ≠ [] ∧
                  hasFlag packet.tcpFlags tcpRst = false := by
                rw [Side.seesData, seen] at data
                simpa using data
              have met : Watched (side.meets cfg watch.tcp packet).direction watch.arrivals :=
                watched.initialized packet.tcpSeq packet.tcpFlags
              obtain ⟨left, skips⟩ := met.segment filled (closes data) rfl (addSegment_meets seen going).2
              have noted : Watched (side.direction (addSegment cfg watch.tcp packet nowMs).1)
                  (watch.note cfg side (addSegment cfg watch.tcp packet nowMs).1
                    (.segment packet nowMs)) := by
                rw [GapWatch.note, data, if_pos rfl]
                exact left
              exact ⟨noted, fun _ => ⟨noted.timed, skips⟩⟩

/-- In every run from the empty table, the flag of a direction says after each data segment
whether data are buffered, its timer says when the first segment beyond the hole came, and a
hole is skipped exactly when it is old enough, if every data segment leaves at most a hole
that is as old as the one before. -/
theorem gaps_timed_of_last_hole (cfg : TcpConfig) (side : Side)
    {transitions : List (Transition GapWatch TcpEvent)} {last : GapWatch}
    (run : Execution (gapStep cfg side) .initial transitions last)
    (careful : ∀ transition ∈ transitions,
      ClosesLastHole cfg side transition.before transition.event) :
    ∀ transition ∈ transitions, TimesGaps cfg side transition := by
  have kept : ∀ {watch later : GapWatch} {event : TcpEvent},
      Watched (side.direction watch.tcp) watch.arrivals → ClosesLastHole cfg side watch event →
        gapStep cfg side watch event = some later →
          Watched (side.direction later.tcp) later.arrivals ∧
            TimesGaps cfg side ⟨watch, event, later⟩ :=
    fun watched closes here => gapStep_watched watched closes here
  exact run.forall_transitions (fun watched closes here => (kept watched closes here).1)
    (fun watched closes here => (kept watched closes here).2) watched_fresh careful

end Run

section Samples

def gapSide : Side := ⟨(samplePacket 0 0 []).flowKey, false⟩

abbrev gapRun (events : List TcpEvent) : Option (List (Transition GapWatch TcpEvent) × GapWatch) :=
  execute (gapStep .default gapSide) .initial events

/-- One hole that its segment does not fill, and one that it fills. -/
def lastHoleEvents : List TcpEvent :=
  [.segment (samplePacket 99 tcpSyn []) 0, .segment (samplePacket 110 0 [97]) 1,
    .segment (samplePacket 111 0 [98]) 6000, .segment (samplePacket 113 0 [99]) 6001,
    .segment (samplePacket 112 0 [100]) 6002]

/-- A second hole behind the one that is skipped. -/
def skippedEvents : List TcpEvent :=
  [.segment (samplePacket 99 tcpSyn []) 0, .segment (samplePacket 110 0 [97]) 1,
    .segment (samplePacket 120 0 [98]) 2, .segment (samplePacket 130 0 [99]) 6000]

/-- A younger second hole behind the one that is filled. -/
def filledEvents : List TcpEvent :=
  [.segment (samplePacket 99 tcpSyn []) 0, .segment (samplePacket 101 0 [97]) 1,
    .segment (samplePacket 110 0 [98]) 4000, .segment (samplePacket 100 0 [99]) 4001,
    .segment (samplePacket 111 0 [100]) 5002]

def lastHoleTrace : List (Transition GapWatch TcpEvent) × GapWatch :=
  (gapRun lastHoleEvents).get (by decide)

def skippedTrace : List (Transition GapWatch TcpEvent) × GapWatch :=
  (gapRun skippedEvents).get (by decide)

def filledTrace : List (Transition GapWatch TcpEvent) × GapWatch :=
  (gapRun filledEvents).get (by decide)

instance (d : Direction) (arrivals : List Buffered) : Decidable (Timed d arrivals) :=
  decidable_of_iff ((d.gapPending = true ↔ d.ooo ≠ []) ∧
      (d.ooo ≠ [] → sinceMs arrivals = some d.gapSinceMs))
    ⟨fun both => ⟨both.1, both.2⟩, fun timed => ⟨timed.pending, timed.since⟩⟩

instance (cfg : TcpConfig) (side : Side) :
    (transition : Transition GapWatch TcpEvent) → Decidable (TimesGaps cfg side transition)
  | ⟨_, .segment _ _, _⟩ => inferInstanceAs (Decidable (_ = true → Timed _ _ ∧ (_ ≠ _ ↔ _ ∧ _)))
  | ⟨_, .expire _, _⟩ => inferInstanceAs (Decidable True)

instance (cfg : TcpConfig) (nowMs : UInt64) (number : UInt32) (held : OooSegments)
    (arrivals : List Buffered) : Decidable (KeepsTimer cfg nowMs number held arrivals) :=
  decidable_of_iff
    ((HoleAt number held → ∀ since ∈ sinceMs arrivals, since ≤ nowMs) ∧
      (HoleAt number held → sinceMs (beyond number arrivals) = sinceMs arrivals) ∧
      (HoleAt number held → Expired cfg nowMs arrivals → ∀ first ∈ held.head?, Joined first.1 held) ∧
      (¬ (HoleAt number held ∧ Expired cfg nowMs arrivals) →
        Joined number held ∨ sinceMs (beyond (reach number held) arrivals) = sinceMs arrivals))
    ⟨fun all => ⟨all.1, all.2.1, all.2.2.1, all.2.2.2⟩,
      fun keeps => ⟨keeps.clock, keeps.stays, keeps.skipped, keeps.filled⟩⟩

instance (cfg : TcpConfig) (side : Side) (watch : GapWatch) :
    (event : TcpEvent) → Decidable (ClosesLastHole cfg side watch event)
  | .segment _ _ => inferInstanceAs (Decidable (_ = true → KeepsTimer _ _ _ _ _))
  | .expire _ => inferInstanceAs (Decidable True)

theorem gaps_timed_sample :
    gapRun lastHoleEvents = some lastHoleTrace ∧
      ∀ transition ∈ lastHoleTrace.1, TimesGaps .default gapSide transition := by
  have ran : gapRun lastHoleEvents = some lastHoleTrace := (Option.some_get _).symm
  exact ⟨ran, gaps_timed_of_last_hole .default gapSide (execution_of_execute ran) (by decide)⟩

theorem second_hole_mistimed :
    ¬ ∀ (cfg : TcpConfig) (side : Side) (transitions : List (Transition GapWatch TcpEvent))
        (last : GapWatch), Execution (gapStep cfg side) .initial transitions last →
        ∀ transition ∈ transitions, TimesGaps cfg side transition := by
  intro timed
  have ran : gapRun skippedEvents = some skippedTrace := (Option.some_get _).symm
  have every := timed .default gapSide skippedTrace.1 skippedTrace.2 (execution_of_execute ran)
  exact absurd every (by decide)

example : ¬ ∀ transition ∈ filledTrace.1, TimesGaps .default gapSide transition := by
  decide

end Samples

end Idsm.EthProbe
