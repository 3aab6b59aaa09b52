import Idsm.EthProbe.StreamTcp
import Idsm.Foundation.Execution
import Idsm.Foundation.Pieces
import Idsm.Foundation.Serial

/-! What the reassembly delivers of one direction, against the stream its segments were
cut from. Positions in the stream stand for the wrapping numbers. -/

set_option autoImplicit false

namespace Idsm.EthProbe

open Idsm.Foundation

section Comparison

variable (base : UInt32) {i j : Nat}

theorem seqLeq_serial (ahead : i < j + 2 ^ 31) (behind : j ≤ i + 2 ^ 31) :
    seqLeq (serial base i) (serial base j) = true ↔ i ≤ j := by
  rw [seqLeq, decide_eq_true_eq]
  exact serial_le_iff base ahead behind

theorem seqLt_serial (ahead : i < j + 2 ^ 31) (behind : j ≤ i + 2 ^ 31) :
    seqLt (serial base i) (serial base j) = true ↔ i < j := by
  rw [seqLt, decide_eq_true_eq]
  exact serial_lt_iff base ahead behind

theorem segEnd_serial (position : Nat) (data : List UInt8) :
    segEnd (serial base position) data = serial base (position + data.length) :=
  serial_add base position data.length

end Comparison

section Buffer

/-- A segment with its position in the stream. -/
abbrev Placed := Nat × List UInt8

def Placed.stop (segment : Placed) : Nat := segment.1 + segment.2.length

/-- How the map holds the segments. -/
def numbered (base : UInt32) (segments : List Placed) : OooSegments :=
  segments.map fun segment => (serial base segment.1, segment.2)

/-- Segments in the order of the stream within half the range after `low`. -/
structure Ordered (stream : List UInt8) (low : Nat) (segments : List Placed) : Prop where
  sorted : segments.Pairwise fun earlier later => earlier.1 < later.1
  cut : ∀ segment ∈ segments, StandsAt stream segment.1 segment.2 ∧ segment.2 ≠ []
  after : ∀ segment ∈ segments, low ≤ segment.1
  near : ∀ segment ∈ segments, segment.stop < low + 2 ^ 31

variable {stream : List UInt8} {base : UInt32} {low next : Nat} {segments : List Placed}

theorem Ordered.sublist {fewer : List Placed} (ordered : Ordered stream low segments)
    (sub : fewer.Sublist segments) : Ordered stream low fewer where
  sorted := ordered.sorted.sublist sub
  cut segment member := ordered.cut segment (sub.subset member)
  after segment member := ordered.after segment (sub.subset member)
  near segment member := ordered.near segment (sub.subset member)

/-- What the drain does on positions: the delivered bytes continue the stream, what is
left starts past a hole, and what is gone was delivered. -/
structure DrainedTo (stream : List UInt8) (base : UInt32) (next : Nat) (segments : List Placed)
    (drained : Drained) (reached : Nat) (rest : List Placed) : Prop where
  number : drained.nextSeq = serial base reached
  onward : next ≤ reached
  within : reached ≤ max next stream.length
  data : stream.take next ++ drained.data = stream.take reached
  remaining : drained.remaining = numbered base rest
  suffix : rest <:+ segments
  ahead : ∀ segment ∈ rest, reached < segment.1
  gone : ∀ segment ∈ segments, segment ∈ rest ∨ segment.stop ≤ reached

theorem drainOoo_reaches (ordered : Ordered stream low segments) (from_low : low ≤ next)
    (near : next < low + 2 ^ 31) :
    ∃ reached rest, DrainedTo stream base next segments
      (drainOoo (serial base next) (numbered base segments)) reached rest := by
  induction segments generalizing next with
  | nil =>
      exact ⟨next, [], rfl, Nat.le_refl _, Nat.le_max_left _ _, List.append_nil _, rfl,
        List.suffix_rfl, by simp, by simp⟩
  | cons segment segments ih =>
      obtain ⟨position, data⟩ := segment
      have others := ordered.sublist (List.sublist_cons_self _ _)
      have first_after := ordered.after _ List.mem_cons_self
      have first_near := ordered.near _ List.mem_cons_self
      obtain ⟨stands, something⟩ := ordered.cut _ List.mem_cons_self
      have past_first := (List.pairwise_cons.mp ordered.sorted).1
      dsimp only [Placed.stop] at first_after first_near past_first
      rw [numbered, List.map_cons, drainOoo, ← numbered, segEnd_serial]
      dsimp only
      split
      next started =>
        rw [seqLeq_serial base (by omega) (by omega)] at started
        split
        next more =>
          rw [seqLt_serial base (by omega) (by omega)] at more
          obtain ⟨reached, rest, drained⟩ := ih others (by omega) first_near
          have inside : position + data.length ≤ stream.length := stands.end_le something
          have onward := drained.onward
          have within := drained.within
          refine ⟨reached, rest, drained.number, by omega, by omega, ?_, drained.remaining,
            drained.suffix.trans (List.suffix_cons _ _), drained.ahead, ?_⟩
          · dsimp only
            rw [serial_sub_toNat base started (by omega), ← List.append_assoc,
              stands.take_append started (Nat.le_of_lt more)]
            exact drained.data
          · intro held member
            rcases List.mem_cons.mp member with rfl | member
            · exact .inr drained.onward
            · exact drained.gone held member
        next covered =>
          rw [seqLt_serial base (by omega) (by omega)] at covered
          obtain ⟨reached, rest, drained⟩ := ih others from_low near
          refine ⟨reached, rest, drained.number, drained.onward, drained.within, drained.data,
            drained.remaining, drained.suffix.trans (List.suffix_cons _ _), drained.ahead, ?_⟩
          intro held member
          rcases List.mem_cons.mp member with rfl | member
          · have := drained.onward
            exact .inr (by dsimp only [Placed.stop]; omega)
          · exact drained.gone held member
      next hole =>
        rw [seqLeq_serial base (by omega) (by omega)] at hole
        refine ⟨next, (position, data) :: segments, rfl, Nat.le_refl _, Nat.le_max_left _ _,
          List.append_nil _, rfl, List.suffix_rfl, ?_, fun _ => Or.inl⟩
        intro held member
        rcases List.mem_cons.mp member with rfl | member
        · dsimp only
          omega
        · have := past_first held member
          omega

theorem numbered_split {position : Nat}
    (unwrapped : ∀ segment ∈ segments,
      serial base segment.1 < serial base position ↔ segment.1 < position) :
    ((numbered base segments).takeWhile fun segment => decide (segment.1 < serial base position)) =
        numbered base (segments.takeWhile fun segment => decide (segment.1 < position)) ∧
      ((numbered base segments).dropWhile fun segment => decide (segment.1 < serial base position)) =
        numbered base (segments.dropWhile fun segment => decide (segment.1 < position)) := by
  induction segments with
  | nil => exact ⟨rfl, rfl⟩
  | cons segment segments ih =>
      obtain ⟨here, others⟩ := List.forall_mem_cons.mp unwrapped
      obtain ⟨taken, dropped⟩ := ih others
      rw [numbered, List.map_cons, ← numbered, List.takeWhile_cons, List.dropWhile_cons,
        List.takeWhile_cons, List.dropWhile_cons]
      by_cases earlier : segment.1 < position
      · have smaller := here.mpr earlier
        simp only [smaller, earlier, decide_true, if_true]
        exact ⟨by rw [taken]; rfl, dropped⟩
      · have larger := mt here.mp earlier
        simp only [larger, earlier, decide_false, Bool.false_eq_true, if_false]
        exact ⟨rfl, rfl⟩

theorem after_split {position : Nat}
    (sorted : segments.Pairwise fun earlier later => earlier.1 < later.1) :
    ∀ segment ∈ segments.dropWhile fun segment => decide (segment.1 < position),
      position ≤ segment.1 := by
  induction segments with
  | nil => simp
  | cons first segments ih =>
      obtain ⟨past_first, others⟩ := List.pairwise_cons.mp sorted
      rw [List.dropWhile_cons]
      split
      next => exact ih others
      next late =>
        rw [decide_eq_true_eq, Nat.not_lt] at late
        intro segment member
        rcases List.mem_cons.mp member with rfl | member
        · exact late
        · exact Nat.le_of_lt (Nat.lt_of_le_of_lt late (past_first segment member))

theorem before_split {position : Nat} :
    ∀ segment ∈ segments.takeWhile fun segment => decide (segment.1 < position),
      segment.1 < position := by
  intro segment member
  simpa using List.mem_takeWhile_imp member

/-- The segment lies within a held one. -/
def Held (segments : List Placed) (segment : Placed) : Prop :=
  ∃ holder ∈ segments, holder.1 ≤ segment.1 ∧ segment.stop ≤ holder.stop

theorem Held.of_mem {segment : Placed} (member : segment ∈ segments) : Held segments segment :=
  ⟨segment, member, Nat.le_refl _, Nat.le_refl _⟩

theorem Held.mono {fewer : List Placed} {segment : Placed} (held : Held fewer segment)
    (all : ∀ other ∈ fewer, other ∈ segments) : Held segments segment := by
  obtain ⟨holder, member, started, stopped⟩ := held
  exact ⟨holder, all holder member, started, stopped⟩

section Insert

variable {front back : List Placed} {position : Nat} {data : List UInt8}

/-- The neighbours of a place among the held segments. -/
structure Around (low : Nat) (front back : List Placed) (position : Nat) (data : List UInt8) :
    Prop where
  front_near : ∀ segment ∈ front, low ≤ segment.1 ∧ segment.stop < low + 2 ^ 31
  back_near : ∀ segment ∈ back, low ≤ segment.1 ∧ segment.stop < low + 2 ^ 31
  front_before : ∀ segment ∈ front, segment.1 < position
  back_after : ∀ segment ∈ back, position ≤ segment.1
  back_sorted : back.Pairwise fun earlier later => earlier.1 < later.1
  here : low ≤ position
  near : position + data.length < low + 2 ^ 31

theorem Around.held_of_dominated (around : Around low front back position data)
    (held : dominated (numbered base front) (numbered base back) (serial base position) data =
      true) : Held (front ++ back) (position, data) := by
  have here := around.here
  have near := around.near
  unfold dominated at held
  rw [Bool.or_eq_true] at held
  rcases held with at_start | before
  · cases back with
    | nil => exact absurd at_start (by simp [numbered])
    | cons first back =>
        have first_near := around.back_near first List.mem_cons_self
        rw [numbered, List.map_cons] at at_start
        dsimp only [Placed.stop] at first_near at_start
        rw [Bool.and_eq_true, beq_iff_eq, serial_inj base (by omega) (by omega), segEnd_serial,
          segEnd_serial, seqLeq_serial base (by omega) (by omega)] at at_start
        exact ⟨first, by simp, by dsimp only; omega, at_start.2⟩
  · rw [numbered, List.getLast?_map] at before
    cases found : front.getLast? with
    | none =>
        rw [found] at before
        exact absurd before (by simp)
    | some last =>
        have member := List.mem_of_getLast? found
        have last_near := around.front_near last member
        have earlier := around.front_before last member
        rw [found, Option.map_some] at before
        dsimp only [Placed.stop] at last_near before
        rw [segEnd_serial, segEnd_serial, seqLeq_serial base (by omega) (by omega)] at before
        exact ⟨last, by simp [member], Nat.le_of_lt earlier, before⟩

/-- The segments that the new one covers are the first ones behind its place. -/
def uncovered (position : Nat) (data : List UInt8) (back : List Placed) : List Placed :=
  back.dropWhile fun segment => decide (segment.stop ≤ position + data.length)

theorem Around.dropWhile_covered (around : Around low front back position data) :
    ((numbered base back).dropWhile fun segment =>
        seqLeq (segEnd segment.1 segment.2) (segEnd (serial base position) data)) =
      numbered base (uncovered position data back) := by
  have here := around.here
  have near := around.near
  have after := around.back_after
  have back_near := around.back_near
  clear around
  induction back with
  | nil => rfl
  | cons first back ih =>
      obtain ⟨first_near, others⟩ := List.forall_mem_cons.mp back_near
      obtain ⟨first_after, later⟩ := List.forall_mem_cons.mp after
      dsimp only [Placed.stop] at first_near
      have same : seqLeq (segEnd (serial base first.1) first.2) (segEnd (serial base position) data) =
          decide (first.stop ≤ position + data.length) := by
        rw [Bool.eq_iff_iff, segEnd_serial, segEnd_serial,
          seqLeq_serial base (by omega) (by omega), decide_eq_true_eq, Placed.stop]
      rw [numbered, List.map_cons, ← numbered, uncovered, List.dropWhile_cons,
        List.dropWhile_cons, same, ← uncovered]
      split
      next => exact ih later others
      next => rfl

theorem uncovered_subset (segment : Placed) (member : segment ∈ uncovered position data back) :
    segment ∈ back :=
  (List.dropWhile_suffix _).subset member

theorem Around.uncovered_after (around : Around low front back position data)
    (new : ¬ dominated (numbered base front) (numbered base back) (serial base position) data =
      true) : ∀ segment ∈ uncovered position data back, position < segment.1 := by
  cases back with
  | nil => simp [uncovered]
  | cons first back =>
      have here := around.here
      have near := around.near
      have first_near := around.back_near first List.mem_cons_self
      have first_after := around.back_after first List.mem_cons_self
      have past_first := (List.pairwise_cons.mp around.back_sorted).1
      dsimp only [Placed.stop] at first_near
      intro segment member
      rcases List.mem_cons.mp (uncovered_subset segment member) with rfl | later
      · refine Nat.lt_of_le_of_ne first_after fun same => new ?_
        have longer : ¬ segment.stop ≤ position + data.length := by
          intro covered
          rw [uncovered, List.dropWhile_cons, decide_eq_true covered, if_pos rfl] at member
          exact absurd (past_first segment ((List.dropWhile_suffix _).subset member))
            (Nat.lt_irrefl _)
        rw [Placed.stop] at longer
        unfold dominated
        rw [numbered, numbered, List.map_cons, Bool.or_eq_true]
        left
        dsimp only
        rw [Bool.and_eq_true, beq_iff_eq, serial_inj base (by omega) (by omega), segEnd_serial,
          segEnd_serial, seqLeq_serial base (by omega) (by omega)]
        exact ⟨same.symm, by omega⟩
      · exact Nat.lt_of_le_of_lt first_after (past_first segment later)

theorem held_of_not_uncovered {segment : Placed} (member : segment ∈ back) (gone : segment ∉ uncovered position data back) :
    segment.stop ≤ position + data.length := by
  rw [← List.takeWhile_append_dropWhile (p := fun segment : Placed =>
    decide (segment.stop ≤ position + data.length)) (l := back), List.mem_append] at member
  rcases member with taken | left
  · simpa using List.mem_takeWhile_imp taken
  · exact absurd left gone

theorem emplace_front (ahead : ∀ segment ∈ back, position < segment.1)
    (near : ∀ segment ∈ back, segment.1 < position + 2 ^ 32) :
    emplace (serial base position) data (numbered base back) =
      numbered base ((position, data) :: back) := by
  cases back with
  | nil => rfl
  | cons first back =>
      have later := ahead first List.mem_cons_self
      have close := near first List.mem_cons_self
      rw [numbered, List.map_cons, emplace, if_neg]
      · rfl
      · rw [serial_inj base (by omega) (by omega)]
        omega

end Insert

theorem Ordered.around {position : Nat} {data : List UInt8} (ordered : Ordered stream low segments)
    (here : low ≤ position) (near : position + data.length < low + 2 ^ 31) :
    Around low (segments.takeWhile fun segment => decide (segment.1 < position))
      (segments.dropWhile fun segment => decide (segment.1 < position)) position data where
  front_near segment member :=
    have kept := (List.takeWhile_sublist _).subset member
    ⟨ordered.after segment kept, ordered.near segment kept⟩
  back_near segment member :=
    have kept := (List.dropWhile_suffix _).subset member
    ⟨ordered.after segment kept, ordered.near segment kept⟩
  front_before := before_split
  back_after := after_split ordered.sorted
  back_sorted := ordered.sorted.sublist (List.dropWhile_sublist _)
  here := here
  near := near

/-- The buffered segments after one more, with nothing lost. -/
structure Inserted (stream : List UInt8) (base : UInt32) (low : Nat) (segments : List Placed)
    (added : Placed) (ooo : OooSegments) (more : List Placed) : Prop where
  held : ooo = numbered base more
  ordered : Ordered stream low more
  source : ∀ segment ∈ more, segment ∈ segments ∨ segment = added
  kept : ∀ segment ∈ added :: segments, Held more segment

theorem Ordered.insert {position : Nat} {data : List UInt8} {ooo : OooSegments}
    (ordered : Ordered stream low segments) (held : ooo = numbered base segments)
    (stands : StandsAt stream position data) (something : data ≠ []) (here : low ≤ position)
    (near : position + data.length < low + 2 ^ 31)
    (unwrapped : ∀ segment ∈ segments,
      serial base segment.1 < serial base position ↔ segment.1 < position) :
    let seq := serial base position
    let before := ooo.takeWhile fun segment => decide (segment.1 < seq)
    let after := ooo.dropWhile fun segment => decide (segment.1 < seq)
    ∃ more, Inserted stream base low segments (position, data)
      (if dominated before after seq data then ooo
        else before ++ emplace seq data
          (after.dropWhile fun segment => seqLeq (segEnd segment.1 segment.2) (segEnd seq data)))
      more := by
  intro seq before after
  have around := ordered.around here near
  obtain ⟨before_eq, after_eq⟩ := numbered_split unwrapped
  rw [← held] at before_eq after_eq
  change before = _ at before_eq
  change after = _ at after_eq
  rw [before_eq, after_eq]
  have whole := List.takeWhile_append_dropWhile (p := fun segment : Placed =>
    decide (segment.1 < position)) (l := segments)
  generalize (segments.takeWhile fun segment => decide (segment.1 < position)) = front at *
  generalize (segments.dropWhile fun segment => decide (segment.1 < position)) = back at *
  subst whole
  split
  next inside =>
    refine ⟨front ++ back, held, ordered, fun _ => Or.inl, ?_⟩
    intro segment member
    rcases List.mem_cons.mp member with rfl | member
    · exact around.held_of_dominated inside
    · exact .of_mem member
  next outside =>
    have ahead := around.uncovered_after outside
    have left : ∀ segment ∈ uncovered position data back, segment ∈ back := uncovered_subset
    refine ⟨front ++ (position, data) :: uncovered position data back, ?_, ?_, ?_, ?_⟩
    · rw [around.dropWhile_covered, emplace_front ahead, numbered, numbered, numbered,
        List.map_append]
      intro segment member
      have close := (around.back_near segment (left segment member)).2
      rw [Placed.stop] at close
      omega
    · have sorted := List.pairwise_append.mp ordered.sorted
      refine ⟨List.pairwise_append.mpr ⟨sorted.1, List.pairwise_cons.mpr ⟨ahead,
        sorted.2.1.sublist (List.dropWhile_sublist _)⟩, ?_⟩, ?_, ?_, ?_⟩
      · intro earlier member later behind
        rcases List.mem_cons.mp behind with rfl | behind
        · exact around.front_before earlier member
        · exact sorted.2.2 earlier member later (left later behind)
      all_goals
        intro segment member
        rw [List.mem_append, List.mem_cons] at member
        rcases member with member | rfl | member
      · exact ordered.cut segment (List.mem_append_left _ member)
      · exact ⟨stands, something⟩
      · exact ordered.cut segment (List.mem_append_right _ (left segment member))
      · exact ordered.after segment (List.mem_append_left _ member)
      · exact here
      · exact ordered.after segment (List.mem_append_right _ (left segment member))
      · exact ordered.near segment (List.mem_append_left _ member)
      · exact near
      · exact ordered.near segment (List.mem_append_right _ (left segment member))
    · intro segment member
      rw [List.mem_append, List.mem_cons] at member
      rcases member with member | same | member
      · exact .inl (List.mem_append_left _ member)
      · exact .inr same
      · exact .inl (List.mem_append_right _ (left segment member))
    · intro segment member
      rw [List.mem_cons, List.mem_append] at member
      rcases member with rfl | member | member
      · exact .of_mem (by simp)
      · exact .of_mem (by simp [member])
      · by_cases stays : segment ∈ uncovered position data back
        · exact .of_mem (by simp [stays])
        · exact ⟨(position, data), by simp, around.back_after segment member,
            held_of_not_uncovered member stays⟩

end Buffer

section Progress

variable {cfg : TcpConfig} {seq : UInt32} {data : List UInt8} {nowMs : UInt64}
  {progress : Progress}

/-- How long the pending hole has been there. -/
def gapAge (nowMs : UInt64) (d : Direction) : UInt64 :=
  if d.gapPending then nowMs - d.gapSinceMs else 0

/-- Buffering touches neither what was delivered nor what is expected. -/
structure OnlyBuffers (nowMs : UInt64) (before after : Progress) : Prop where
  initialized : after.direction.initialized = before.direction.initialized
  nextSeq : after.direction.nextSeq = before.direction.nextSeq
  finSeen : after.direction.finSeen = before.direction.finSeen
  data : after.data = before.data
  gapAge : gapAge nowMs after.direction = gapAge nowMs before.direction

theorem bufferSegment_onlyBuffers :
    OnlyBuffers nowMs progress (bufferSegment cfg seq data nowMs progress) := by
  unfold bufferSegment
  dsimp only
  split
  · split
    · exact ⟨rfl, rfl, rfl, rfl, rfl⟩
    · refine ⟨rfl, rfl, rfl, rfl, ?_⟩
      unfold gapAge
      cases progress.direction.gapPending <;> simp
  · exact ⟨rfl, rfl, rfl, rfl, rfl⟩

theorem bufferSegment_ooo
    (room : progress.direction.oooBytes + data.length ≤ cfg.maxStreamBytes ∧
      progress.memUsed + data.length ≤ cfg.maxMemBytes) :
    let before := progress.direction.ooo.takeWhile fun segment => decide (segment.1 < seq)
    let after := progress.direction.ooo.dropWhile fun segment => decide (segment.1 < seq)
    (bufferSegment cfg seq data nowMs progress).direction.ooo =
      if dominated before after seq data then progress.direction.ooo
      else before ++ emplace seq data
        (after.dropWhile fun segment => seqLeq (segEnd segment.1 segment.2) (segEnd seq data)) := by
  unfold bufferSegment
  dsimp only
  rw [if_pos room]
  split <;> rfl

theorem skipGap_of_young {d : Direction} (young : gapAge nowMs d < cfg.gapTimeoutMs) :
    skipGap cfg nowMs d = d := by
  unfold skipGap
  split
  · rfl
  · refine if_neg fun ⟨pending, old, _⟩ => ?_
    rw [gapAge, if_pos pending] at young
    exact absurd old (UInt64.not_le.mpr young)

theorem skipGap_of_closed {d : Direction}
    (closed : ∀ first ∈ d.ooo.head?, seqLt d.nextSeq first.1 = false) :
    skipGap cfg nowMs d = d := by
  unfold skipGap
  split
  · rfl
  next start held rest here =>
    have met := closed (start, held) (by rw [here]; rfl)
    refine if_neg fun ⟨_, _, behind⟩ => ?_
    rw [met] at behind
    exact absurd behind (by simp)

/-- What a direction expects and holds, in positions of the stream. -/
structure Tracks (stream : List UInt8) (base : UInt32) (low : Nat) (sofar : List UInt8)
    (fed : List Placed) (d : Direction) (next : Nat) (segments : List Placed) : Prop where
  number : d.nextSeq = serial base next
  delivered : sofar = stream.take next
  held : d.ooo = numbered base segments
  ordered : Ordered stream low segments
  onward : low ≤ next
  near : next < low + 2 ^ 31
  covers : ∀ piece ∈ fed, ∀ index < stream.length, piece.1 ≤ index → index < piece.stop →
    index < next ∨ ∃ segment ∈ segments, segment.1 ≤ index ∧ index < segment.stop

variable {stream sofar : List UInt8} {base : UInt32} {low next start : Nat}
  {fed segments : List Placed}

theorem drainSegments_tracks
    (tracks : Tracks stream base low (sofar ++ progress.data) fed progress.direction next segments) :
    ∃ reached rest, Tracks stream base reached (sofar ++ (drainSegments progress).data) fed
        (drainSegments progress).direction reached rest ∧
      (∀ segment ∈ rest, reached < segment.1) ∧ next ≤ reached ∧
      reached ≤ max next stream.length := by
  unfold drainSegments
  dsimp only
  split
  next none =>
    have none_held : segments = [] := by
      have held := tracks.held
      rw [none] at held
      exact List.map_eq_nil_iff.mp held.symm
    subst none_held
    refine ⟨next, [], ⟨tracks.number, tracks.delivered, tracks.held, ⟨.nil, ?_, ?_, ?_⟩, ?_, ?_,
      tracks.covers⟩, ?_, Nat.le_refl _, Nat.le_max_left _ _⟩ <;> simp
  next some =>
    rw [tracks.held, tracks.number]
    obtain ⟨reached, rest, drained⟩ :=
      @drainOoo_reaches stream base _ _ _ tracks.ordered tracks.onward tracks.near
    have onward := tracks.onward
    have further := drained.onward
    have kept := tracks.ordered.sublist drained.suffix.sublist
    refine ⟨reached, rest, ⟨drained.number, ?_, drained.remaining, ?_, Nat.le_refl _, by omega, ?_⟩,
      drained.ahead, further, drained.within⟩
    · dsimp only
      rw [← List.append_assoc, tracks.delivered]
      exact drained.data
    · refine ⟨kept.sorted, kept.cut, fun segment member => Nat.le_of_lt (drained.ahead segment member),
        fun segment member => ?_⟩
      have := kept.near segment member
      omega
    · intro piece fed_piece index inside started stopped
      rcases tracks.covers piece fed_piece index inside started stopped with
        earlier | ⟨segment, member, within⟩
      · exact .inl (by omega)
      · rcases drained.gone segment member with left | gone
        · exact .inr ⟨segment, left, within⟩
        · exact .inl (by omega)

/-- A segment that was placed: delivered as far as it continues the stream, or buffered. -/
theorem placeSegment_tracks
    (tracks : Tracks stream base next (sofar ++ progress.data) fed progress.direction next segments)
    (stands : StandsAt stream start data) (something : data ≠ [])
    (ahead : start + data.length < next + 2 ^ 31) (behind : next ≤ start + 2 ^ 31)
    (room : ¬ seqLeq (serial base start) progress.direction.nextSeq = true →
      progress.direction.oooBytes + data.length ≤ cfg.maxStreamBytes ∧
        progress.memUsed + data.length ≤ cfg.maxMemBytes)
    (unwrapped : ¬ seqLeq (serial base start) progress.direction.nextSeq = true →
      ∀ segment ∈ progress.direction.ooo,
        segment.1 < serial base start ↔ seqLt segment.1 (serial base start) = true) :
    ∃ reached more, Tracks stream base next
        (sofar ++ (placeSegment cfg (serial base start) data nowMs progress).data)
        ((start, data) :: fed)
        (placeSegment cfg (serial base start) data nowMs progress).direction reached more ∧
      next ≤ reached ∧ reached ≤ max next stream.length ∧
      (start ≤ next → start + data.length ≤ reached ∧ more = segments) := by
  have inside := stands.end_le something
  have covers_more : ∀ reached, next ≤ reached → start + data.length ≤ reached →
      ∀ piece ∈ (start, data) :: fed, ∀ index < stream.length, piece.1 ≤ index →
        index < Placed.stop piece →
        index < reached ∨ ∃ segment ∈ segments, segment.1 ≤ index ∧ index < segment.stop := by
    intro reached further whole piece member index inside started stopped
    rcases List.mem_cons.mp member with rfl | member
    · dsimp only [Placed.stop] at stopped
      exact .inl (by omega)
    · rcases tracks.covers piece member index inside started stopped with earlier | within
      · exact .inl (by omega)
      · exact .inr within
  unfold placeSegment
  dsimp only
  rw [tracks.number, segEnd_serial]
  rw [tracks.number, seqLeq_serial base (by omega) (by omega), Nat.not_le] at room unwrapped
  split
  next old =>
    rw [seqLeq_serial base (by omega) (by omega)] at old
    exact ⟨next, segments, ⟨tracks.number, tracks.delivered, tracks.held, tracks.ordered,
      Nat.le_refl _, by omega, covers_more next (Nat.le_refl _) old⟩, Nat.le_refl _, by omega,
      fun _ => ⟨old, rfl⟩⟩
  next new =>
    rw [seqLeq_serial base (by omega) (by omega)] at new
    have reaches : start ≤ next → Tracks stream base next
        (sofar ++ (deliver (data.drop (next - start)) progress).data) ((start, data) :: fed)
        (deliver (data.drop (next - start)) progress).direction (start + data.length) segments := by
      intro started
      refine ⟨?_, ?_, tracks.held, tracks.ordered, by omega, by omega,
        covers_more _ (by omega) (Nat.le_refl _)⟩
      · rw [deliver]
        dsimp only
        rw [tracks.number, segEnd_serial, List.length_drop]
        congr 1
        omega
      · rw [deliver]
        dsimp only
        rw [← List.append_assoc, tracks.delivered]
        exact stands.take_append started (by omega)
    split
    next overlaps =>
      rw [seqLt_serial base (by omega) (by omega)] at overlaps
      rw [serial_sub_toNat base (Nat.le_of_lt overlaps) (by omega)]
      exact ⟨start + data.length, segments, reaches (Nat.le_of_lt overlaps), by omega, by omega,
        fun _ => ⟨Nat.le_refl _, rfl⟩⟩
    next not_before =>
      rw [seqLt_serial base (by omega) (by omega)] at not_before
      split
      next exactly =>
        rw [serial_inj base (by omega) (by omega)] at exactly
        subst exactly
        have there := reaches (Nat.le_refl _)
        rw [Nat.sub_self, List.drop_zero] at there
        exact ⟨start + data.length, segments, there, by omega, by omega,
          fun _ => ⟨Nat.le_refl _, rfl⟩⟩
      next not_here =>
        rw [serial_inj base (by omega) (by omega)] at not_here
        have later : next < start := by omega
        have by_position : ∀ segment ∈ segments,
            serial base segment.1 < serial base start ↔ segment.1 < start := by
          intro segment member
          have after := tracks.ordered.after segment member
          have close := tracks.ordered.near segment member
          rw [Placed.stop] at close
          have in_map : (serial base segment.1, segment.2) ∈ progress.direction.ooo := by
            rw [tracks.held]
            exact List.mem_map_of_mem member
          rw [unwrapped later _ in_map, seqLt_serial base (by omega) (by omega)]
        obtain ⟨more, inserted⟩ := tracks.ordered.insert tracks.held stands something
          (Nat.le_of_lt later) ahead by_position
        have buffers := @bufferSegment_onlyBuffers cfg (serial base start) data nowMs progress
        refine ⟨next, more, ⟨buffers.nextSeq.trans tracks.number, ?_, ?_, inserted.ordered,
          Nat.le_refl _, by omega, ?_⟩, Nat.le_refl _, by omega,
          fun started => absurd started (by omega)⟩
        · rw [buffers.data]
          exact tracks.delivered
        · rw [bufferSegment_ooo (room later)]
          exact inserted.held
        · have held_within : ∀ piece ∈ (start, data) :: segments, ∀ index, piece.1 ≤ index →
              index < Placed.stop piece →
              ∃ segment ∈ more, segment.1 ≤ index ∧ index < segment.stop := by
            intro piece member index started stopped
            obtain ⟨holder, kept, earlier, behind⟩ := inserted.kept piece member
            exact ⟨holder, kept, by omega, by omega⟩
          intro piece member index inside started stopped
          rcases List.mem_cons.mp member with rfl | member
          · exact .inr (held_within _ List.mem_cons_self index started stopped)
          · rcases tracks.covers piece member index inside started stopped with earlier | within
            · exact .inl earlier
            · obtain ⟨segment, kept, started, stopped⟩ := within
              exact .inr (held_within segment (List.mem_cons_of_mem _ kept) index started stopped)

/-- What placing and draining leave as it was. -/
structure SameFlags (before after : Direction) : Prop where
  initialized : after.initialized = before.initialized
  finSeen : after.finSeen = before.finSeen

theorem placeSegment_flags :
    SameFlags progress.direction (placeSegment cfg seq data nowMs progress).direction ∧
      gapAge nowMs (placeSegment cfg seq data nowMs progress).direction =
        gapAge nowMs progress.direction := by
  unfold placeSegment
  dsimp only
  split
  · exact ⟨⟨rfl, rfl⟩, rfl⟩
  · split
    · exact ⟨⟨rfl, rfl⟩, rfl⟩
    · split
      · exact ⟨⟨rfl, rfl⟩, rfl⟩
      · exact ⟨⟨bufferSegment_onlyBuffers.initialized, bufferSegment_onlyBuffers.finSeen⟩,
          bufferSegment_onlyBuffers.gapAge⟩

theorem addData_flags :
    SameFlags progress.direction (addData cfg seq data nowMs progress).direction := by
  have skip : ∀ d, SameFlags d (skipGap cfg nowMs d) := by
    intro d
    unfold skipGap
    split
    · exact ⟨rfl, rfl⟩
    · split <;> exact ⟨rfl, rfl⟩
  have drain : ∀ placed : Progress, SameFlags placed.direction (drainSegments placed).direction := by
    intro placed
    unfold drainSegments
    dsimp only
    split <;> exact ⟨rfl, rfl⟩
  unfold addData
  split
  · exact ⟨rfl, rfl⟩
  · have placed := (@placeSegment_flags cfg seq data nowMs progress).1
    have skipped := skip (placeSegment cfg seq data nowMs progress).direction
    have drained := drain { placeSegment cfg seq data nowMs progress with
      direction := skipGap cfg nowMs (placeSegment cfg seq data nowMs progress).direction }
    exact ⟨(drained.initialized.trans skipped.initialized).trans placed.initialized,
      (drained.finSeen.trans skipped.finSeen).trans placed.finSeen⟩

/-- The conditions under which a new segment meets no limit: room to buffer it, and no
old hole in front of the buffered segments unless it closes that hole. -/
structure Unhindered (cfg : TcpConfig) (nowMs : UInt64) (seq : UInt32) (data : List UInt8)
    (d : Direction) (memUsed : Nat) : Prop where
  room : ¬ seqLeq seq d.nextSeq = true →
    d.oooBytes + data.length ≤ cfg.maxStreamBytes ∧ memUsed + data.length ≤ cfg.maxMemBytes
  young : gapAge nowMs d < cfg.gapTimeoutMs ∨
    (seqLeq seq d.nextSeq = true ∧
      ∀ first ∈ d.ooo.head?, ¬ seqLeq (segEnd seq data) d.nextSeq = true ∧
        seqLeq first.1 (segEnd seq data) = true)

theorem addData_tracks
    (tracks : Tracks stream base next (sofar ++ progress.data) fed progress.direction next segments)
    (stands : StandsAt stream start data) (something : data ≠ [])
    (ahead : start + data.length < next + 2 ^ 31) (behind : next ≤ start + 2 ^ 31)
    (free : Unhindered cfg nowMs (serial base start) data progress.direction progress.memUsed)
    (unwrapped : ¬ seqLeq (serial base start) progress.direction.nextSeq = true →
      ∀ segment ∈ progress.direction.ooo,
        segment.1 < serial base start ↔ seqLt segment.1 (serial base start) = true) :
    ∃ reached rest, Tracks stream base reached
        (sofar ++ (addData cfg (serial base start) data nowMs progress).data)
        ((start, data) :: fed)
        (addData cfg (serial base start) data nowMs progress).direction reached rest ∧
      (∀ segment ∈ rest, reached < segment.1) ∧ next ≤ reached ∧
      reached ≤ max next stream.length ∧ (start ≤ next → start + data.length ≤ reached) := by
  obtain ⟨reached, more, placed, further, within, whole⟩ :=
    @placeSegment_tracks _ _ nowMs _ _ _ _ _ _ _ _ tracks stands something ahead behind free.room unwrapped
  have calm : skipGap cfg nowMs (placeSegment cfg (serial base start) data nowMs progress).direction =
      (placeSegment cfg (serial base start) data nowMs progress).direction := by
    rcases free.young with young | ⟨started, closes⟩
    · rw [← placeSegment_flags.2] at young
      exact skipGap_of_young young
    · rw [tracks.number, seqLeq_serial base (by omega) (by omega)] at started
      obtain ⟨reaches, same⟩ := whole started
      subst same
      refine skipGap_of_closed fun first member => ?_
      rw [tracks.held] at closes
      rw [placed.held] at member
      obtain ⟨new, closed⟩ := closes first member
      cases more with
      | nil => exact absurd member (by simp [numbered])
      | cons segment more =>
          obtain rfl : (serial base segment.1, segment.2) = first := by
            simpa [numbered] using member
          have after := placed.ordered.after segment List.mem_cons_self
          have close := placed.ordered.near segment List.mem_cons_self
          have near := placed.near
          rw [Placed.stop] at close
          rw [segEnd_serial, tracks.number, seqLeq_serial base (by omega) (by omega)] at new
          rw [segEnd_serial, seqLeq_serial base (by omega) (by omega)] at closed
          rw [placed.number, Bool.eq_false_iff, ne_eq, seqLt_serial base (by omega) (by omega)]
          omega
  unfold addData
  rw [if_neg something]
  dsimp only
  rw [calm]
  obtain ⟨last, rest, drained, clear, onward, bound⟩ := drainSegments_tracks placed
  refine ⟨last, rest, drained, clear, by omega, by omega, fun started => ?_⟩
  have := (whole started).1
  omega

/-- A segment whose bytes were all delivered before. -/
theorem addData_of_old
    (tracks : Tracks stream base next (sofar ++ progress.data) fed progress.direction next segments)
    (something : data ≠ []) (stop : segEnd seq data = serial base start) (old : start ≤ next)
    (behind : next ≤ start + 2 ^ 31)
    (free : Unhindered cfg nowMs seq data progress.direction progress.memUsed) :
    ∃ reached rest, Tracks stream base reached
        (sofar ++ (addData cfg seq data nowMs progress).data) fed
        (addData cfg seq data nowMs progress).direction reached rest ∧
      (∀ segment ∈ rest, reached < segment.1) ∧ next ≤ reached ∧
      reached ≤ max next stream.length := by
  have placed : placeSegment cfg seq data nowMs progress = progress := by
    rw [placeSegment, stop, tracks.number]
    exact if_pos ((seqLeq_serial base (by omega) (by omega)).mpr old)
  have calm : skipGap cfg nowMs progress.direction = progress.direction := by
    rcases free.young with young | ⟨_, closes⟩
    · exact skipGap_of_young young
    · refine skipGap_of_closed fun first member => ?_
      have new := (closes first member).1
      rw [stop, tracks.number, seqLeq_serial base (by omega) (by omega)] at new
      exact absurd old new
  unfold addData
  rw [if_neg something]
  dsimp only
  rw [placed, calm]
  exact drainSegments_tracks tracks

end Progress

section Direction

/-- The direction of one flow that is followed, and the stream that its sender sends. -/
structure Watch where
  flow : FlowKey
  reverse : Bool
  base : UInt32
  stream : List UInt8

/-- A packet of the sender, its payload cut from the stream at the position. -/
structure CutFrom (w : Watch) (pp : ParsedPacket) (position : Nat) : Prop where
  number : pp.tcpSeq + (if hasFlag pp.tcpFlags tcpSyn then 1 else 0) = serial w.base position
  payload : pp.payload ≠ [] → StandsAt w.stream position pp.payload
  syn : hasFlag pp.tcpFlags tcpSyn = true → position = 0
  fin : hasFlag pp.tcpFlags tcpFin = true → position + pp.payload.length = w.stream.length

/-- The packets that the reassembly gets right, where `sofar` was delivered. -/
structure Careful (w : Watch) (sofar : List UInt8) (pp : ParsedPacket) (position : Nat)
    (d : Direction) : Prop where
  start : d.initialized = false → position = sofar.length ∨
    (pp.payload = [] ∧ sofar = w.stream ∧ w.stream.length ≤ position ∧
      position ≤ w.stream.length + 1)
  near : pp.payload ≠ [] → position + pp.payload.length < sofar.length + 2 ^ 31 ∧
    sofar.length + 2 ≤ position + 2 ^ 31
  syn : hasFlag pp.tcpFlags tcpSyn = true → pp.payload.length ≤ sofar.length
  fin : hasFlag pp.tcpFlags tcpFin = true → d.finSeen = false → position ≤ sofar.length
  unwrapped : pp.payload ≠ [] → d.initialized = true → ¬ seqLeq pp.tcpSeq d.nextSeq = true →
    ∀ segment ∈ d.ooo, segment.1 < pp.tcpSeq ↔ seqLt segment.1 pp.tcpSeq = true

/-- How a direction stands to the stream: not begun, or at some place of it. -/
inductive Follows (w : Watch) (sofar : List UInt8) (fed : List Placed) : Direction → Prop where
  | waiting (delivered : sofar <+: w.stream)
      (covers : ∀ piece ∈ fed, ∀ index < w.stream.length, piece.1 ≤ index →
        index < piece.stop → index < sofar.length) : Follows w sofar fed .fresh
  | going {d : Direction} {next : Nat} {segments : List Placed}
      (initialized : d.initialized = true)
      (tracks : Tracks w.stream w.base next sofar fed d next segments)
      (ahead : ∀ segment ∈ segments, next < segment.1)
      (bounded : next ≤ w.stream.length + if d.finSeen then 2 else 1)
      (finished : d.finSeen = true → w.stream.length ≤ next) : Follows w sofar fed d

variable {w : Watch} {sofar : List UInt8} {fed : List Placed} {d : Direction}
  {cfg : TcpConfig} {pp : ParsedPacket} {position : Nat} {nowMs : UInt64} {memUsed : Nat}

/-- Only the pieces with data matter, in any order. -/
theorem Follows.of_pieces {pieces : List Placed} (follows : Follows w sofar fed d)
    (all : ∀ piece ∈ pieces, piece ∈ fed ∨ piece.2 = []) : Follows w sofar pieces d := by
  have inside : ∀ piece ∈ pieces, ∀ index, piece.1 ≤ index → index < piece.stop → piece ∈ fed := by
    intro piece member index started stopped
    rcases all piece member with there | empty
    · exact there
    · rw [Placed.stop, empty, List.length_nil] at stopped
      exact absurd started (by omega)
  cases follows with
  | waiting delivered covers =>
      refine .waiting delivered fun piece member index within started stopped => ?_
      exact covers piece (inside piece member index started stopped) index within started stopped
  | going initialized tracks ahead bounded finished =>
      refine .going initialized ⟨tracks.number, tracks.delivered, tracks.held, tracks.ordered,
        tracks.onward, tracks.near, ?_⟩ ahead bounded finished
      intro piece member index within started stopped
      exact tracks.covers piece (inside piece member index started stopped) index within started
        stopped

/-- A direction without a stream to follow may start anew where the delivered bytes end. -/
theorem Follows.dropped (follows : Follows w sofar fed d) (nothing_held : d.ooo = []) :
    Follows w sofar fed .fresh := by
  cases follows with
  | waiting delivered covers => exact .waiting delivered covers
  | @going d next segments initialized tracks ahead bounded finished =>
      have none : segments = [] := by
        have held := tracks.held
        rw [nothing_held] at held
        exact List.map_eq_nil_iff.mp held.symm
      subst none
      refine .waiting (tracks.delivered ▸ List.take_prefix _ _) ?_
      intro piece member index inside started stopped
      rw [tracks.delivered, List.length_take]
      rcases tracks.covers piece member index inside started stopped with earlier | ⟨_, absent, _⟩
      · exact Nat.lt_min.mpr ⟨earlier, inside⟩
      · exact absurd absent (by simp)

theorem Follows.nothing_held_of_finSeen (follows : Follows w sofar fed d)
    (seen : d.finSeen = true) : d.ooo = [] := by
  cases follows with
  | waiting => rfl
  | @going d next segments initialized tracks ahead bounded finished =>
      rw [tracks.held]
      refine List.map_eq_nil_iff.mpr (List.eq_nil_iff_forall_not_mem.mpr fun segment member => ?_)
      obtain ⟨stands, something⟩ := tracks.ordered.cut segment member
      have inside := stands.end_le something
      have later := ahead segment member
      have all := finished seen
      omega

/-- The followed bytes are a prefix of the stream, and all of it once every byte was fed. -/
theorem Follows.faithful (follows : Follows w sofar fed d) :
    sofar <+: w.stream ∧ (Covered w.stream.length fed → sofar = w.stream) := by
  cases follows with
  | waiting delivered covers =>
      refine ⟨delivered, fun covered => delivered.eq_of_length_le ?_⟩
      by_contra shorter
      obtain ⟨piece, member, started, stopped⟩ := covered sofar.length (by omega)
      exact Nat.lt_irrefl _ (covers piece member _ (by omega) started stopped)
  | @going d next segments initialized tracks ahead bounded finished =>
      rw [tracks.delivered]
      refine ⟨List.take_prefix _ _, fun covered => List.take_of_length_le ?_⟩
      by_contra shorter
      obtain ⟨piece, member, started, stopped⟩ := covered next (by omega)
      rcases tracks.covers piece member next (by omega) started stopped with
        earlier | ⟨segment, held, before, _⟩
      · exact Nat.lt_irrefl _ earlier
      · have := ahead segment held
        omega

/-- The first packet sets the place where the direction starts. -/
theorem Follows.begun (follows : Follows w sofar fed d) (cut : CutFrom w pp position)
    (start : d.initialized = false → position = sofar.length ∨
      (pp.payload = [] ∧ sofar = w.stream ∧ w.stream.length ≤ position ∧
        position ≤ w.stream.length + 1)) :
    ∃ next segments, Tracks w.stream w.base next sofar fed
        (initDirection pp.tcpSeq pp.tcpFlags d) next segments ∧
      (∀ segment ∈ segments, next < segment.1) ∧
      next ≤ w.stream.length + (if d.finSeen then 2 else 1) ∧
      (d.finSeen = true → w.stream.length ≤ next) ∧
      (d.initialized = false → next = position) := by
  cases follows with
  | waiting delivered covers =>
      have place : sofar = w.stream.take position ∧ sofar.length ≤ position ∧
          position ≤ w.stream.length + 1 := by
        rcases start rfl with here | ⟨_, all, passed, close⟩
        · have fits := delivered.length_le
          exact ⟨here ▸ List.prefix_iff_eq_take.mp delivered, by omega, by omega⟩
        · exact ⟨all.trans (List.take_of_length_le passed).symm, by rw [all]; exact passed, close⟩
      refine ⟨position, [], ⟨?_, place.1, rfl, ⟨.nil, ?_, ?_, ?_⟩, Nat.le_refl _, by omega, ?_⟩, ?_,
        place.2.2, ?_, fun _ => rfl⟩
      · exact cut.number
      · simp
      · simp
      · simp
      · intro piece member index inside started stopped
        have := covers piece member index inside started stopped
        exact .inl (by omega)
      · simp
      · simp [Direction.fresh]
  | going initialized tracks ahead bounded finished =>
      rw [initDirection, if_pos initialized]
      exact ⟨_, _, tracks, ahead, bounded, finished, fun not_yet => by
        rw [initialized] at not_yet; exact absurd not_yet (by simp)⟩

theorem Tracks.sofar_length {stream : List UInt8} {base : UInt32} {low next : Nat}
    {segments : List Placed} (tracks : Tracks stream base low sofar fed d next segments) :
    sofar.length = min next stream.length := by
  rw [tracks.delivered, List.length_take]

/-- The end of a payload behind a SYN, by the number of the SYN itself. -/
theorem segEnd_syn {seq base : UInt32} {data : List UInt8} (number : seq + 1 = serial base 0)
    (something : data ≠ []) : segEnd seq data = serial base (data.length - 1) := by
  have positive := List.length_pos_iff.mpr something
  have split : data.length = 1 + (data.length - 1) := by omega
  calc segEnd seq data
      = seq + UInt32.ofNat (1 + (data.length - 1)) := by rw [segEnd, ← split]
    _ = seq + 1 + UInt32.ofNat (data.length - 1) := by
        rw [UInt32.ofNat_add, ← UInt32.add_assoc]
        rfl
    _ = serial base (data.length - 1) := by rw [number, serial_add, Nat.zero_add]

/-- A packet's payload, whatever the packet carries besides. -/
theorem Follows.addData (follows : Follows w sofar fed d) (cut : CutFrom w pp position)
    (careful : Careful w sofar pp position d)
    (free : pp.payload ≠ [] → Unhindered cfg nowMs pp.tcpSeq pp.payload
      (initDirection pp.tcpSeq pp.tcpFlags d) memUsed) :
    let progress := addData cfg pp.tcpSeq pp.payload nowMs
      (.start (initDirection pp.tcpSeq pp.tcpFlags d) memUsed)
    ∃ reached rest, Tracks w.stream w.base reached (sofar ++ progress.data)
        ((position, pp.payload) :: fed) progress.direction reached rest ∧
      (∀ segment ∈ rest, reached < segment.1) ∧
      reached ≤ w.stream.length + (if d.finSeen then 2 else 1) ∧
      (d.finSeen = true → w.stream.length ≤ reached) ∧
      (position ≤ sofar.length → position + pp.payload.length ≤ reached) := by
  obtain ⟨next, segments, tracks, ahead, bounded, finished, begun⟩ :=
    follows.begun cut careful.start
  have length := tracks.sofar_length
  have at_most : next ≤ sofar.length + 2 := by
    split at bounded <;> omega
  by_cases nothing : pp.payload = []
  · rw [nothing, EthProbe.addData, if_pos rfl]
    refine ⟨next, segments, ⟨tracks.number, ?_, tracks.held, tracks.ordered, Nat.le_refl _,
      tracks.near, ?_⟩, ahead, bounded, finished, fun started => ?_⟩
    · rw [Progress.start, List.append_nil]
      exact tracks.delivered
    · intro piece member index inside started stopped
      rcases List.mem_cons.mp member with rfl | member
      · rw [Placed.stop, List.length_nil] at stopped
        exact absurd started (by omega)
      · exact tracks.covers piece member index inside started stopped
    · rw [List.length_nil]
      omega
  · have free := free nothing
    obtain ⟨close, recent⟩ := careful.near nothing
    have start_tracks : Tracks w.stream w.base next
        (sofar ++ (Progress.start (initDirection pp.tcpSeq pp.tcpFlags d) memUsed).data) fed
        (Progress.start (initDirection pp.tcpSeq pp.tcpFlags d) memUsed).direction next segments := by
      rw [Progress.start, List.append_nil]
      exact tracks
    have number := cut.number
    by_cases syn : hasFlag pp.tcpFlags tcpSyn = true
    · obtain rfl := cut.syn syn
      rw [if_pos syn] at number
      have delivered_before := careful.syn syn
      obtain ⟨reached, rest, after, clear, onward, within⟩ :=
        @addData_of_old _ _ _ _ _ _ _ _ _ (pp.payload.length - 1) _ _ start_tracks nothing
          (segEnd_syn number nothing) (by omega) (by omega) free
      refine ⟨reached, rest, ⟨after.number, after.delivered, after.held, after.ordered,
        after.onward, after.near, ?_⟩, clear, ?_, fun seen => ?_, fun _ => by omega⟩
      · intro piece member index inside started stopped
        rcases List.mem_cons.mp member with rfl | member
        · dsimp only [Placed.stop] at stopped
          exact .inl (by omega)
        · exact after.covers piece member index inside started stopped
      · omega
      · have := finished seen
        omega
    · rw [if_neg syn, UInt32.add_zero] at number
      have stands := cut.payload nothing
      have unwrapped := careful.unwrapped nothing
      rw [number] at free unwrapped ⊢
      have by_init : ¬ seqLeq (serial w.base position)
            (initDirection (serial w.base position) pp.tcpFlags d).nextSeq = true →
          ∀ segment ∈ (initDirection (serial w.base position) pp.tcpFlags d).ooo,
            segment.1 < serial w.base position ↔
              seqLt segment.1 (serial w.base position) = true := by
        intro later
        by_cases initialized : d.initialized = true
        · rw [initDirection, if_pos initialized] at later ⊢
          exact unwrapped initialized later
        · rw [initDirection, if_neg initialized, if_neg syn, UInt32.add_zero] at later
          exact absurd ((seqLeq_serial w.base (by omega) (by omega)).mpr (Nat.le_refl _)) later
      rw [number] at start_tracks
      obtain ⟨reached, rest, after, clear, onward, within, whole⟩ :=
        addData_tracks start_tracks stands nothing (by omega) (by omega) free by_init
      refine ⟨reached, rest, after, clear, ?_, fun seen => ?_, fun started => whole (by omega)⟩
      · omega
      · have := finished seen
        omega

theorem initDirection_finSeen (seq : UInt32) (flags : UInt8) (d : Direction) :
    (initDirection seq flags d).finSeen = d.finSeen := by
  rw [initDirection]
  split <;> rfl

theorem initDirection_initialized (seq : UInt32) (flags : UInt8) (d : Direction) :
    (initDirection seq flags d).initialized = true := by
  rw [initDirection]
  split
  next already => exact already
  next => rfl

/-- One packet of the followed direction. -/
theorem Follows.segment (follows : Follows w sofar fed d) (cut : CutFrom w pp position)
    (careful : Careful w sofar pp position d)
    (free : pp.payload ≠ [] → Unhindered cfg nowMs pp.tcpSeq pp.payload
      (initDirection pp.tcpSeq pp.tcpFlags d) memUsed) :
    Follows w (sofar ++ (segmentProgress cfg pp nowMs d memUsed).data)
      ((position, pp.payload) :: fed) (segmentProgress cfg pp nowMs d memUsed).direction := by
  obtain ⟨reached, rest, tracks, clear, bounded, finished, whole⟩ := follows.addData cut careful free
  have flags := @addData_flags cfg pp.tcpSeq pp.payload nowMs
    (.start (initDirection pp.tcpSeq pp.tcpFlags d) memUsed)
  rw [segmentProgress]
  generalize EthProbe.addData cfg pp.tcpSeq pp.payload nowMs
    (.start (initDirection pp.tcpSeq pp.tcpFlags d) memUsed) = progress at *
  have initialized : progress.direction.initialized = true :=
    flags.initialized.trans (initDirection_initialized _ _ _)
  have finSeen : progress.direction.finSeen = d.finSeen :=
    flags.finSeen.trans (initDirection_finSeen _ _ _)
  rw [← finSeen] at bounded finished
  rw [finDirection]
  split
  next first_fin =>
    rw [Bool.and_eq_true, Bool.not_eq_true'] at first_fin
    obtain ⟨fin, unseen⟩ := first_fin
    have started := careful.fin fin (finSeen ▸ unseen)
    have stop := cut.fin fin
    have reaches := whole started
    have none : rest = [] := by
      refine List.eq_nil_iff_forall_not_mem.mpr fun segment member => ?_
      obtain ⟨stands, something⟩ := tracks.ordered.cut segment member
      have inside := stands.end_le something
      have later := clear segment member
      omega
    subst none
    rw [unseen, if_neg Bool.false_ne_true] at bounded
    refine @Follows.going _ _ _ _ (reached + 1) [] initialized
      ⟨?_, ?_, tracks.held, ⟨.nil, ?_, ?_, ?_⟩, Nat.le_refl _, by omega, ?_⟩ ?_ ?_ fun _ => ?_
    · rw [← serial_succ, ← tracks.number]
    · rw [tracks.delivered, List.take_of_length_le (by omega), List.take_of_length_le (by omega)]
    · simp
    · simp
    · simp
    · intro piece member index inside _ _
      exact .inl (by omega)
    · simp
    · rw [if_pos rfl]
      omega
    · omega
  next => exact .going initialized tracks clear bounded finished

end Direction

section Flows

variable {state : TcpReassembly} {key other : FlowKey}

theorem find_setFlow (flow : TcpFlow) :
    (state.setFlow key flow).find other = if key = other then some flow else state.find other := by
  rw [TcpReassembly.find, TcpReassembly.setFlow, TcpReassembly.find, List.find?_append]
  split
  next same =>
    subst same
    have absent : (state.flows.filter fun entry => decide (entry.1 ≠ key)).find?
        (fun entry => decide (entry.1 = key)) = none := by
      rw [List.find?_eq_none]
      intro entry member
      simpa using (List.mem_filter.mp member).2
    rw [absent]
    simp
  next different =>
    have last : [(key, flow)].find? (fun entry => decide (entry.1 = other)) = none := by
      simp [different]
    rw [last, Option.or_none, List.find?_filter]
    congr 2
    funext entry
    by_cases here : entry.1 = other
    · simp [here, Ne.symm different]
    · simp [here]

theorem find_touch : (state.touch key).find other = state.find other := rfl

theorem find_eraseFlow :
    (state.eraseFlow key).find other = if key = other then none else state.find other := by
  rw [TcpReassembly.find, TcpReassembly.eraseFlow, TcpReassembly.find]
  dsimp only
  rw [List.find?_filter]
  split
  next same =>
    subst same
    rw [Option.map_eq_none_iff, List.find?_eq_none]
    intro entry _
    simp
  next different =>
    congr 2
    funext entry
    by_cases here : entry.1 = other
    · simp [here, Ne.symm different]
    · simp [here]

theorem makeRoom_of_room {maxFlows fuel : Nat} (room : state.flows.length < maxFlows) :
    TcpReassembly.makeRoom maxFlows key fuel state = (state, false) := by
  cases fuel with
  | zero => rfl
  | succ fuel =>
      rw [TcpReassembly.makeRoom]
      cases state.lru with
      | nil => rfl
      | cons front rest => exact if_neg fun full => absurd full.1 (by omega)

theorem addSegment_of_not_tcp {cfg : TcpConfig} {pp : ParsedPacket} {nowMs : UInt64}
    (other : pp.isTcp = false) :
    addSegment cfg state pp nowMs = (state, ⟨false, [], false, ⟨[], [], 0, 0⟩, false, false⟩) := by
  rw [addSegment, if_pos other]

/-- A packet that needs no room in the flow table leaves every other flow alone. -/
theorem addSegment_of_room {cfg : TcpConfig} {pp : ParsedPacket} {nowMs : UInt64}
    (tcp : pp.isTcp = true)
    (room : (state.find pp.flowKey).isNone = true → state.flows.length < cfg.maxFlows) :
    addSegment cfg state pp nowMs =
      let key := pp.flowKey
      let reverse := !pp.forward
      let flow : TcpFlow := { (state.find key).getD .fresh with lastSeenMs := nowMs }
      let touched := (state.setFlow key flow).touch key
      if hasFlag pp.tcpFlags tcpRst then
        (touched.eraseFlow key, ⟨false, [], reverse, key, true, false⟩)
      else
        let progress := segmentProgress cfg pp nowMs (flow.dir reverse) state.memUsed
        let flow := flow.setDir reverse progress.direction
        let after := { touched.setFlow key flow with memUsed := progress.memUsed }
        let closed := (flow.dir false).finSeen && (flow.dir true).finSeen
        (if closed then after.eraseFlow key else after,
          ⟨progress.hasData, progress.data, reverse, key, closed, progress.evicted⟩) := by
  unfold addSegment
  rw [if_neg (by simp [tcp])]
  dsimp only
  have kept : (if (state.find pp.flowKey).isNone then
      state.makeRoom cfg.maxFlows pp.flowKey state.lru.length else (state, false)) =
        (state, false) := by
    split
    next absent => exact makeRoom_of_room (room absent)
    next => rfl
  rw [kept]
  rfl

theorem find_expired {idle : List (FlowKey × TcpFlow)} :
    (idle.foldl (fun state entry => state.eraseFlow entry.1) state).find key = state.find key ∨
      (∃ entry ∈ idle, entry.1 = key) ∧
        (idle.foldl (fun state entry => state.eraseFlow entry.1) state).find key = none := by
  induction idle generalizing state with
  | nil => exact .inl rfl
  | cons entry idle ih =>
      rw [List.foldl_cons]
      by_cases here : entry.1 = key
      · refine .inr ⟨⟨entry, List.mem_cons_self, here⟩, ?_⟩
        have gone : (state.eraseFlow entry.1).find key = none := by rw [find_eraseFlow, if_pos here]
        rcases @ih (state.eraseFlow entry.1) with same | ⟨_, none⟩
        · exact same.trans gone
        · exact none
      · rcases @ih (state.eraseFlow entry.1) with same | ⟨⟨found, member, named⟩, none⟩
        · exact .inl (same.trans (by rw [find_eraseFlow, if_neg here]))
        · exact .inr ⟨⟨found, List.mem_cons_of_mem _ member, named⟩, none⟩

end Flows

section Runs

/-- `position` says where in the stream of its sender the payload stands; no step reads it. -/
inductive StreamEvent where
  | segment (packet : ParsedPacket) (nowMs : UInt64) (position : Nat)
  | expire (nowMs : UInt64)

def streamStep (cfg : TcpConfig) (state : TcpReassembly) : StreamEvent → Option TcpReassembly
  | .segment packet nowMs _ => some (addSegment cfg state packet nowMs).1
  | .expire nowMs => some (state.expire cfg.idleTimeoutMs nowMs).1

abbrev StreamTransition := Transition TcpReassembly StreamEvent

def Watch.watches (w : Watch) (pp : ParsedPacket) : Bool :=
  pp.isTcp && decide (pp.flowKey = w.flow) && decide ((!pp.forward) = w.reverse)

/-- What one call delivers for the followed direction. -/
def Watch.delivers (w : Watch) (cfg : TcpConfig) (transition : StreamTransition) : List UInt8 :=
  match transition.event with
  | .segment packet nowMs _ =>
      let result := (addSegment cfg transition.before packet nowMs).2
      if result.flow = w.flow ∧ result.reverse = w.reverse then result.data else []
  | .expire _ => []

def Watch.delivered (w : Watch) (cfg : TcpConfig) (past : List StreamTransition) : List UInt8 :=
  past.flatMap (w.delivers cfg)

def Watch.pieces (w : Watch) : StreamEvent → List Placed
  | .segment packet _ position => if w.watches packet then [(position, packet.payload)] else []
  | .expire _ => []

/-- The pieces of the stream that were fed. -/
def Watch.fed (w : Watch) (past : List StreamTransition) : List Placed :=
  past.flatMap fun transition => w.pieces transition.event

def directionOf (w : Watch) (state : TcpReassembly) : Direction :=
  ((state.find w.flow).getD .fresh).dir w.reverse

/-- Every packet of the followed direction is cut from the stream. -/
def SentFrom (w : Watch) : StreamEvent → Prop
  | .segment packet _ position => w.watches packet = true → CutFrom w packet position
  | .expire _ => True

/-- No cap is hit and no hole is too old. -/
def NoLimitHit (cfg : TcpConfig) (w : Watch) (state : TcpReassembly) : StreamEvent → Prop
  | .segment packet nowMs _ =>
      packet.isTcp = true →
        ((state.find packet.flowKey).isNone = true → state.flows.length < cfg.maxFlows) ∧
        (w.watches packet = true → packet.payload ≠ [] →
          Unhindered cfg nowMs packet.tcpSeq packet.payload
            (initDirection packet.tcpSeq packet.tcpFlags (directionOf w state)) state.memUsed)
  | .expire _ => True

/-- A step that the followed direction survives: its packets are handled with care, and
its flow goes away only while nothing is buffered. -/
def CarefulStep (cfg : TcpConfig) (w : Watch) (sofar : List UInt8) (state : TcpReassembly) :
    StreamEvent → Prop
  | .segment packet _ position =>
      packet.isTcp = true → packet.flowKey = w.flow →
        (hasFlag packet.tcpFlags tcpRst = true →
          (directionOf w state).ooo = [] ∧ (w.watches packet = true → packet.payload = [])) ∧
        (w.watches packet = true → Careful w sofar packet position (directionOf w state))
  | .expire nowMs =>
      ∀ entry ∈ state.flows, entry.1 = w.flow → cfg.idleTimeoutMs ≤ nowMs - entry.2.lastSeenMs →
        (directionOf w state).ooo = []

variable {cfg : TcpConfig} {w : Watch} {sofar : List UInt8} {fed : List Placed}
  {state later : TcpReassembly}

theorem directionOf_of_find {other : TcpReassembly} (same : other.find w.flow = state.find w.flow) :
    directionOf w other = directionOf w state := by
  rw [directionOf, same, directionOf]

theorem directionOf_of_gone (gone : state.find w.flow = none) : directionOf w state = .fresh := by
  rw [directionOf, gone]
  rfl

theorem Follows.expired {nowMs : UInt64} (follows : Follows w sofar fed (directionOf w state))
    (careful : CarefulStep cfg w sofar state (.expire nowMs)) :
    Follows w sofar fed (directionOf w (state.expire cfg.idleTimeoutMs nowMs).1) := by
  rw [TcpReassembly.expire]
  dsimp only
  rcases @find_expired state w.flow _ with same | ⟨⟨entry, member, named⟩, gone⟩
  · rw [directionOf_of_find same]
    exact follows
  · rw [directionOf_of_gone gone]
    obtain ⟨there, idle⟩ := List.mem_filter.mp member
    exact follows.dropped (careful entry there named (of_decide_eq_true idle))

theorem watches_eq {packet : ParsedPacket} :
    w.watches packet = true ↔
      packet.isTcp = true ∧ packet.flowKey = w.flow ∧ (!packet.forward) = w.reverse := by
  rw [Watch.watches, Bool.and_eq_true, Bool.and_eq_true, decide_eq_true_eq, decide_eq_true_eq,
    and_assoc]

/-- A flow closes when both directions have seen their FIN. -/
theorem finSeen_of_closed {flow : TcpFlow} (reverse : Bool)
    (closed : ((flow.dir false).finSeen && (flow.dir true).finSeen) = true) :
    (flow.dir reverse).finSeen = true := by
  rw [Bool.and_eq_true] at closed
  cases reverse with
  | false => exact closed.1
  | true => exact closed.2

theorem Follows.stored {flow : TcpFlow} (follows : Follows w sofar fed (flow.dir w.reverse))
    (found : later.find w.flow = some flow) :
    Follows w sofar fed (directionOf w
      (if ((flow.dir false).finSeen && (flow.dir true).finSeen) = true then later.eraseFlow w.flow
        else later)) := by
  split
  next closed =>
    rw [directionOf_of_gone (by rw [find_eraseFlow, if_pos rfl])]
    exact follows.dropped (follows.nothing_held_of_finSeen (finSeen_of_closed w.reverse closed))
  next =>
    rw [directionOf, found]
    exact follows

theorem Follows.elsewhere (follows : Follows w sofar fed (directionOf w state))
    (same : later.find w.flow = state.find w.flow) :
    Follows w sofar fed (directionOf w later) := by
  rw [directionOf_of_find same]
  exact follows

/-- One packet of any flow. -/
theorem Follows.fedSegment {packet : ParsedPacket} {nowMs : UInt64} {position : Nat}
    (follows : Follows w sofar fed (directionOf w state))
    (sent : SentFrom w (.segment packet nowMs position))
    (free : NoLimitHit cfg w state (.segment packet nowMs position))
    (careful : CarefulStep cfg w sofar state (.segment packet nowMs position)) :
    Follows w
      (sofar ++ w.delivers cfg
        ⟨state, .segment packet nowMs position, (addSegment cfg state packet nowMs).1⟩)
      (w.pieces (.segment packet nowMs position) ++ fed)
      (directionOf w (addSegment cfg state packet nowMs).1) := by
  rw [Watch.delivers, Watch.pieces]
  dsimp only
  by_cases tcp : packet.isTcp = true
  · obtain ⟨room, unhindered⟩ := free tcp
    have careful := careful tcp
    rw [addSegment_of_room tcp room]
    by_cases here : packet.flowKey = w.flow
    · obtain ⟨resets, careful⟩ := careful here
      dsimp only
      rw [here]
      split
      next rst =>
        obtain ⟨nothing_held, no_payload⟩ := resets rst
        rw [directionOf_of_gone (by rw [find_eraseFlow, if_pos rfl]), ite_self, List.append_nil]
        refine (follows.dropped nothing_held).of_pieces fun piece member => ?_
        rcases List.mem_append.mp member with now | before
        · split at now
          next watched =>
            obtain rfl := List.mem_singleton.mp now
            exact .inr (no_payload watched)
          next => exact absurd now (by simp)
        · exact .inl before
      next no_rst =>
        dsimp only
        by_cases same : (!packet.forward) = w.reverse
        · have watched : w.watches packet = true := watches_eq.2 ⟨tcp, here, same⟩
          rw [if_pos watched, same, if_pos ⟨rfl, rfl⟩]
          have progressed := @Follows.segment _ _ _ _ cfg _ _ nowMs state.memUsed follows
            (sent watched) (careful watched) (unhindered watched)
          refine Follows.stored ?_ ((find_setFlow _).trans (if_pos rfl))
          rw [TcpFlow.setDir]
          dsimp only
          rw [if_pos rfl]
          exact progressed
        · have not_watched : ¬ w.watches packet = true := fun watched =>
            same (watches_eq.1 watched).2.2
          rw [if_neg not_watched, if_neg fun both => same both.2, List.append_nil, List.nil_append]
          refine Follows.stored ?_ ((find_setFlow _).trans (if_pos rfl))
          rw [TcpFlow.setDir]
          dsimp only
          rw [if_neg (Ne.symm same)]
          exact follows
    · have not_watched : ¬ w.watches packet = true := fun watched =>
        here (watches_eq.1 watched).2.1
      rw [if_neg not_watched, List.nil_append]
      dsimp only
      split
      next =>
        rw [if_neg fun both => here both.1, List.append_nil]
        exact follows.elsewhere (by
          rw [find_eraseFlow, if_neg here, find_touch, find_setFlow, if_neg here])
      next =>
        dsimp only
        rw [if_neg fun both => here both.1, List.append_nil]
        have kept : ∀ flow, ((state.setFlow packet.flowKey flow).touch packet.flowKey).find w.flow =
            state.find w.flow :=
          fun flow => find_touch.trans ((find_setFlow _).trans (if_neg here))
        split
        next =>
          refine follows.elsewhere ?_
          rw [find_eraseFlow, if_neg here]
          exact (find_setFlow _).trans ((if_neg here).trans (kept _))
        next => exact follows.elsewhere ((find_setFlow _).trans ((if_neg here).trans (kept _)))
  · have not_watched : ¬ w.watches packet = true := fun watched => tcp (watches_eq.1 watched).1
    rw [addSegment_of_not_tcp (Bool.eq_false_iff.mpr tcp), if_neg not_watched, ite_self,
      List.append_nil, List.nil_append]
    exact follows

/-- What the followed direction delivers is a prefix of its stream, and the whole stream
once every byte was fed: in every run that hits no limit, whose SYNs carry no new payload,
whose first FIN does not overtake data, whose direction starts where the delivered bytes
end, and whose buffered numbers keep the order of the stream. -/
theorem stream_delivered_of_careful (cfg : TcpConfig) (w : Watch) {start last : TcpReassembly}
    {transitions : List StreamTransition}
    (run : Execution (streamStep cfg) start transitions last)
    (unknown : directionOf w start = .fresh)
    (sent : ∀ transition ∈ transitions, SentFrom w transition.event)
    (free : ∀ transition ∈ transitions, NoLimitHit cfg w transition.before transition.event)
    (careful : ∀ past transition rest, transitions = past ++ transition :: rest →
      CarefulStep cfg w (w.delivered cfg past) transition.before transition.event) :
    w.delivered cfg transitions <+: w.stream ∧
      (Covered w.stream.length (w.fed transitions) → w.delivered cfg transitions = w.stream) := by
  have follows : Follows w (w.delivered cfg transitions) (w.fed transitions) (directionOf w last) := by
    refine run.invariant_of_past
      (fun past state =>
        Follows w (w.delivered cfg past) (w.fed past) (directionOf w state))
      (fun past state event => SentFrom w event ∧ NoLimitHit cfg w state event ∧
        CarefulStep cfg w (w.delivered cfg past) state event) ?_ ?_ ?_
    · intro past state event later holds allowed here
      obtain ⟨sent, free, careful⟩ := allowed
      rw [Watch.delivered, List.flatMap_append, List.flatMap_singleton, ← Watch.delivered,
        Watch.fed, List.flatMap_append, List.flatMap_singleton, ← Watch.fed]
      cases event with
      | segment packet nowMs position =>
          obtain rfl := Option.some.inj here
          refine (holds.fedSegment sent free careful).of_pieces fun piece member => .inl ?_
          rw [List.mem_append] at member ⊢
          exact member.symm
      | expire nowMs =>
          obtain rfl := Option.some.inj here
          rw [Watch.delivers, Watch.pieces, List.append_nil, List.append_nil]
          exact holds.expired careful
    · rw [unknown]
      exact .waiting (List.nil_prefix) (by simp [Watch.fed])
    · intro past transition rest split
      have member : transition ∈ transitions := by simp [split]
      exact ⟨sent transition member, free transition member, careful past transition rest split⟩
  exact follows.faithful

section Samples

def samplePacket (seq : UInt32) (flags : UInt8) (payload : List UInt8) : ParsedPacket :=
  { ParsedPacket.empty with isTcp := true, tcpSeq := seq, tcpFlags := flags, payload }

/-- The sender of two bytes; the number of its SYN is 99. -/
def sampleWatch : Watch := ⟨(samplePacket 0 0 []).flowKey, false, 100, [97, 98]⟩

/-- The reassembly after packets that came at one time. -/
def afterPackets : List ParsedPacket → TcpReassembly
  | [] => .empty
  | packet :: earlier => (addSegment .default (afterPackets earlier) packet 0).1

def sampleStep (earlier : List ParsedPacket) (packet : ParsedPacket) (position : Nat) :
    StreamTransition :=
  ⟨afterPackets earlier, .segment packet 0 position, afterPackets (packet :: earlier)⟩

def sampleSyn : ParsedPacket := samplePacket 99 tcpSyn []

def sampleSecond : ParsedPacket := samplePacket 101 0 [98]

def sampleFirst : ParsedPacket := samplePacket 100 0 [97]

/-- The second byte comes first. -/
def reorderedRun : List StreamTransition :=
  [sampleStep [] sampleSyn 0, sampleStep [sampleSyn] sampleSecond 1,
    sampleStep [sampleSecond, sampleSyn] sampleFirst 0]

theorem stream_delivered_sample :
    sampleWatch.delivered .default reorderedRun <+: sampleWatch.stream ∧
      (Covered sampleWatch.stream.length (sampleWatch.fed reorderedRun) →
        sampleWatch.delivered .default reorderedRun = sampleWatch.stream) := by
  refine @stream_delivered_of_careful .default sampleWatch .empty
    (afterPackets [sampleFirst, sampleSecond, sampleSyn]) _ (.next rfl (.next rfl (.next rfl (.stop _)))) rfl ?_ ?_ ?_
  · intro transition member
    rw [reorderedRun, List.mem_cons, List.mem_cons, List.mem_singleton] at member
    rcases member with rfl | rfl | rfl
    all_goals exact fun _ => ⟨by decide, by decide, by decide, by decide⟩
  · intro transition member
    rw [reorderedRun, List.mem_cons, List.mem_cons, List.mem_singleton] at member
    rcases member with rfl | rfl | rfl
    all_goals
      exact fun _ => ⟨by decide, fun _ _ => ⟨by decide, .inl (by decide)⟩⟩
  · refine Execution.forall_splits_cons ?_ (Execution.forall_splits_cons ?_
      (Execution.forall_splits_cons ?_ Execution.forall_splits_nil))
    all_goals
      refine fun _ _ => ⟨fun reset => absurd reset (by decide), fun _ => ?_⟩
      exact ⟨by decide, by decide, by decide, by decide,
        by decide⟩

/-- The payload of the SYN loses its first byte. -/
def synDataRun : List StreamTransition := [sampleStep [] (samplePacket 99 tcpSyn [97, 98]) 0]

def sampleFinSecond : ParsedPacket := samplePacket 101 tcpFin [98]

/-- The FIN comes before the first byte, which then counts as delivered. -/
def earlyFinRun : List StreamTransition :=
  [sampleStep [] sampleSyn 0, sampleStep [sampleSyn] sampleFinSecond 1,
    sampleStep [sampleFinSecond, sampleSyn] sampleFirst 0]

/-- A run within all limits that covers the stream and delivers something else. -/
def LosesData (cfg : TcpConfig) (w : Watch) (transitions : List StreamTransition) : Prop :=
  (∃ last, Execution (streamStep cfg) .empty transitions last) ∧
    (∀ transition ∈ transitions, SentFrom w transition.event) ∧
    (∀ transition ∈ transitions, NoLimitHit cfg w transition.before transition.event) ∧
    Covered w.stream.length (w.fed transitions) ∧ w.delivered cfg transitions ≠ w.stream

theorem stream_loses_data_of_syn_and_fin :
    LosesData .default sampleWatch synDataRun ∧ LosesData .default sampleWatch earlyFinRun := by
  refine ⟨⟨⟨_, .next rfl (.stop _)⟩, ?_, ?_, ?_, by decide⟩,
    ⟨⟨_, .next rfl (.next rfl (.next rfl (.stop _)))⟩, ?_, ?_, ?_, by decide⟩⟩
  · intro transition member
    obtain rfl := List.mem_singleton.mp member
    exact fun _ => ⟨by decide, by decide, by decide, by decide⟩
  · intro transition member
    obtain rfl := List.mem_singleton.mp member
    exact fun _ => ⟨by decide, fun _ _ => ⟨by decide, .inl (by decide)⟩⟩
  · unfold Covered
    decide
  · intro transition member
    rw [earlyFinRun, List.mem_cons, List.mem_cons, List.mem_singleton] at member
    rcases member with rfl | rfl | rfl
    all_goals exact fun _ => ⟨by decide, by decide, by decide, by decide⟩
  · intro transition member
    rw [earlyFinRun, List.mem_cons, List.mem_cons, List.mem_singleton] at member
    rcases member with rfl | rfl | rfl
    all_goals
      exact fun _ => ⟨by decide, fun _ _ => ⟨by decide, .inl (by decide)⟩⟩
  · unfold Covered
    decide

end Samples

end Runs

end Idsm.EthProbe
