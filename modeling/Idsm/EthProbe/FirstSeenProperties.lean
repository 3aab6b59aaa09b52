import Idsm.EthProbe.GapTimerProperties

/-! Which of the segments that cover a place of a direction gives the byte that is delivered
for it. -/

set_option autoImplicit false

namespace Idsm.EthProbe

open Idsm.Foundation

/-- The place of a number, counted with the one that is expected. -/
def placeOf (next : Nat) (nextSeq seq : UInt32) : Nat :=
  ((next : Int) + (seq - nextSeq).toInt32.toInt).toNat

theorem serial_placeOf {base seq : UInt32} {next : Nat} (far : 2 ^ 31 ≤ next) :
    serial base (placeOf next (serial base next) seq) = seq ∧
      next ≤ placeOf next (serial base next) seq + 2 ^ 31 ∧
      placeOf next (serial base next) seq < next + 2 ^ 31 := by
  have signed : (seq - serial base next).toInt32.toInt = (seq - serial base next).toBitVec.toInt := rfl
  have shifted : seq = serial base next + (seq - serial base next) := by grind
  unfold placeOf
  rw [signed, BitVec.toInt_eq_toNat_cond]
  generalize seq - serial base next = ahead at shifted ⊢
  have small : ahead.toNat < 2 ^ 32 := UInt32.toNat_lt _
  have same : ahead.toBitVec.toNat = ahead.toNat := rfl
  rw [same]
  refine ⟨?_, ?_, ?_⟩
  · rw [shifted]
    unfold serial
    rw [UInt32.add_assoc, UInt32.add_right_inj, ← UInt32.toNat_inj, UInt32.toNat_add,
      UInt32.toNat_ofNat', UInt32.toNat_ofNat']
    split <;> omega
  · split <;> omega
  · split <;> omega

section Buffer

variable {base : UInt32} {low next : Nat} {segments : List Placed}

/-- Segments in their order within half the range after `low`. -/
structure Ranked (low : Nat) (segments : List Placed) : Prop where
  sorted : segments.Pairwise fun earlier later => earlier.1 < later.1
  filled : ∀ segment ∈ segments, segment.2 ≠ []
  after : ∀ segment ∈ segments, low ≤ segment.1
  near : ∀ segment ∈ segments, segment.stop < low + 2 ^ 31

theorem Ranked.sublist {fewer : List Placed} (ranked : Ranked low segments)
    (sub : fewer.Sublist segments) : Ranked low fewer where
  sorted := ranked.sorted.sublist sub
  filled segment member := ranked.filled segment (sub.subset member)
  after segment member := ranked.after segment (sub.subset member)
  near segment member := ranked.near segment (sub.subset member)

/-- What the drain delivers is what the first segments hold, and the others stay. -/
structure DrainedFirst (base : UInt32) (low next : Nat) (segments : List Placed)
    (drained : Drained) (reached : Nat) (rest : List Placed) : Prop where
  number : drained.nextSeq = serial base reached
  onward : reached = next + drained.data.length
  near : reached < low + 2 ^ 31
  data : ∀ (index : Nat) (byte : UInt8), drained.data[index]? = some byte →
    firstHeld segments (next + index) = some byte
  remaining : drained.remaining = numbered base rest
  suffix : rest <:+ segments
  ahead : ∀ segment ∈ rest, reached < segment.1
  kept : ∀ place, reached ≤ place → firstHeld rest place = firstHeld segments place

theorem drainOoo_first (ranked : Ranked low segments) (from_low : low ≤ next)
    (near : next < low + 2 ^ 31) :
    ∃ reached rest, DrainedFirst base low next segments
      (drainOoo (serial base next) (numbered base segments)) reached rest := by
  induction segments generalizing next with
  | nil =>
      exact ⟨next, [], rfl, rfl, near, by simp [drainOoo, numbered], rfl, List.suffix_rfl, by simp,
        fun _ _ => rfl⟩
  | cons segment segments ih =>
      obtain ⟨position, data⟩ := segment
      have others := ranked.sublist (List.sublist_cons_self _ _)
      have first_after := ranked.after _ List.mem_cons_self
      have first_near := ranked.near _ List.mem_cons_self
      have past_first := (List.pairwise_cons.mp ranked.sorted).1
      dsimp only [Placed.stop] at first_after first_near past_first
      rw [numbered, List.map_cons, drainOoo, ← numbered, segEnd_serial]
      dsimp only
      split
      next started =>
        rw [seqLeq_serial base (by omega) (by omega)] at started
        split
        next more =>
          rw [seqLt_serial base (by omega) (by omega)] at more
          obtain ⟨reached, rest, drained⟩ := ih others (by omega) first_near
          have onward := drained.onward
          have behind : ∀ place, position + data.length ≤ place →
              firstHeld ((position, data) :: segments) place = firstHeld segments place := by
            intro place past
            rw [firstHeld_cons, heldAt_eq_none.2 (.inr past), Option.none_or]
          have skip : (serial base next - serial base position).toNat = next - position :=
            serial_sub_toNat base started (by omega)
          refine ⟨reached, rest, drained.number, ?_, drained.near, ?_, drained.remaining,
            drained.suffix.trans (List.suffix_cons _ _), drained.ahead, ?_⟩
          · dsimp only
            rw [skip, List.length_append, List.length_drop]
            omega
          · intro index byte found
            dsimp only at found
            rw [skip, List.getElem?_append, List.length_drop] at found
            split at found
            next inside =>
              rw [List.getElem?_drop] at found
              rw [firstHeld_cons, heldAt_of_started (by dsimp only; omega)]
              dsimp only
              rw [show next + index - position = next - position + index by omega, found]
              rfl
            next outside =>
              have later := drained.data _ byte found
              rw [show position + data.length + (index - (data.length - (next - position))) =
                next + index by omega] at later
              rw [behind _ (by omega)]
              exact later
          · intro place past
            rw [behind place (by omega)]
            exact drained.kept place past
        next covered =>
          rw [seqLt_serial base (by omega) (by omega)] at covered
          obtain ⟨reached, rest, drained⟩ := ih others from_low near
          have behind : ∀ place, next ≤ place →
              firstHeld ((position, data) :: segments) place = firstHeld segments place := by
            intro place past
            rw [firstHeld_cons, heldAt_eq_none.2 (.inr (by dsimp only; omega)), Option.none_or]
          refine ⟨reached, rest, drained.number, drained.onward, drained.near, ?_,
            drained.remaining, drained.suffix.trans (List.suffix_cons _ _), drained.ahead, ?_⟩
          · intro index byte found
            rw [behind _ (by omega)]
            exact drained.data index byte found
          · intro place past
            have onward := drained.onward
            rw [behind place (by omega)]
            exact drained.kept place past
      next hole =>
        rw [seqLeq_serial base (by omega) (by omega)] at hole
        refine ⟨next, (position, data) :: segments, rfl, rfl, near, by simp, rfl, List.suffix_rfl,
          ?_, fun _ _ => rfl⟩
        intro held member
        rcases List.mem_cons.mp member with rfl | member
        · dsimp only
          omega
        · have := past_first held member
          omega

/-- Wherever no buffered segment that starts before it reaches, a segment carries what is
buffered there. -/
def Agrees (held : List Placed) (arriving : Placed) : Prop :=
  ∀ (place : Nat) (byte other : UInt8), heldAt place arriving = some byte →
    firstHeld (held.takeWhile fun segment => decide (segment.1 < arriving.1)) place = none →
    firstHeld held place = some other → byte = other

section Insert

variable {front back : List Placed} {position place : Nat} {data : List UInt8}

theorem firstHeld_uncovered (after : ∀ segment ∈ back, position ≤ segment.1)
    (apart : heldAt place (position, data) = none) :
    firstHeld (uncovered position data back) place = firstHeld back place := by
  have split := List.takeWhile_append_dropWhile (p := fun segment : Placed =>
    decide (segment.stop ≤ position + data.length)) (l := back)
  have covered : firstHeld (back.takeWhile fun segment : Placed =>
      decide (segment.stop ≤ position + data.length)) place = none := by
    rw [firstHeld_eq_none]
    intro segment member
    have started := after segment ((List.takeWhile_sublist _).subset member)
    have stopped : Placed.stop segment ≤ position + data.length := by
      simpa using List.mem_takeWhile_imp member
    rw [heldAt_eq_none] at apart ⊢
    dsimp only [Placed.stop] at stopped apart
    omega
  nth_rewrite 2 [← split]
  rw [firstHeld_append, covered, Option.none_or, uncovered]

theorem firstHeld_of_held {segment : Placed} (held : Held segments segment) :
    (firstHeld segments place).or (heldAt place segment) = firstHeld segments place := by
  obtain ⟨holder, member, started, stopped⟩ := held
  cases found : firstHeld segments place with
  | some byte => rfl
  | none =>
      have apart := firstHeld_eq_none.1 found holder member
      rw [Option.none_or, heldAt_eq_none]
      rw [heldAt_eq_none] at apart
      dsimp only [Placed.stop] at stopped
      omega

theorem firstHeld_inserted (agrees : Agrees (front ++ back) (position, data))
    (before : ∀ segment ∈ front, segment.1 < position) (after : ∀ segment ∈ back, position ≤ segment.1) :
    firstHeld (front ++ (position, data) :: uncovered position data back) place =
      (firstHeld (front ++ back) place).or (heldAt place (position, data)) := by
  have split : (front ++ back).takeWhile (fun segment => decide (segment.1 < position)) = front := by
    rw [List.takeWhile_append_of_pos (by simpa using before)]
    cases back with
    | nil => simp
    | cons first back =>
        have late := after first List.mem_cons_self
        rw [List.takeWhile_cons_of_neg (by simpa using late), List.append_nil]
  have agree := agrees place
  rw [split] at agree
  rw [firstHeld_append, firstHeld_append, firstHeld_cons]
  rw [firstHeld_append] at agree
  cases blank : firstHeld front place with
  | some byte => rfl
  | none =>
      rw [blank, Option.none_or] at agree
      rw [Option.none_or, Option.none_or]
      cases here : heldAt place (position, data) with
      | none => rw [firstHeld_uncovered after here, Option.none_or, Option.or_none]
      | some byte =>
          cases there : firstHeld back place with
          | none => rfl
          | some other =>
              rw [agree byte other here rfl there]
              rfl

end Insert

/-- The buffered segments after one more, where earlier ones keep their places. -/
structure AddedFirst (base : UInt32) (low : Nat) (segments : List Placed) (added : Placed)
    (ooo : OooSegments) (more : List Placed) : Prop where
  held : ooo = numbered base more
  ranked : Ranked low more
  first : ∀ place, firstHeld more place = (firstHeld segments place).or (heldAt place added)

theorem Ranked.insert {position : Nat} {data : List UInt8} {ooo : OooSegments}
    (ranked : Ranked low segments) (held : ooo = numbered base segments)
    (something : data ≠ []) (here : low ≤ position) (near : position + data.length < low + 2 ^ 31)
    (unwrapped : ∀ segment ∈ segments,
      serial base segment.1 < serial base position ↔ segment.1 < position) :
    let seq := serial base position
    let before := ooo.takeWhile fun segment => decide (segment.1 < seq)
    let after := ooo.dropWhile fun segment => decide (segment.1 < seq)
    (dominated before after seq data = false → Agrees segments (position, data)) →
    ∃ more, AddedFirst base low segments (position, data)
      (if dominated before after seq data then ooo
        else before ++ emplace seq data
          (after.dropWhile fun segment => seqLeq (segEnd segment.1 segment.2) (segEnd seq data)))
      more := by
  intro seq before after agrees
  have around : Around low (segments.takeWhile fun segment => decide (segment.1 < position))
      (segments.dropWhile fun segment => decide (segment.1 < position)) position data :=
    ⟨fun segment member =>
        have kept := (List.takeWhile_sublist _).subset member
        ⟨ranked.after segment kept, ranked.near segment kept⟩,
      fun segment member =>
        have kept := (List.dropWhile_suffix _).subset member
        ⟨ranked.after segment kept, ranked.near segment kept⟩,
      before_split, after_split ranked.sorted, ranked.sorted.sublist (List.dropWhile_sublist _),
      here, near⟩
  obtain ⟨before_eq, after_eq⟩ := numbered_split unwrapped
  rw [← held] at before_eq after_eq
  change before = _ at before_eq
  change after = _ at after_eq
  rw [before_eq, after_eq] at agrees ⊢
  have whole := List.takeWhile_append_dropWhile (p := fun segment : Placed =>
    decide (segment.1 < position)) (l := segments)
  generalize (segments.takeWhile fun segment => decide (segment.1 < position)) = front at *
  generalize (segments.dropWhile fun segment => decide (segment.1 < position)) = back at *
  subst whole
  split
  next inside =>
    exact ⟨front ++ back, held, ranked, fun place =>
      (firstHeld_of_held (around.held_of_dominated inside)).symm⟩
  next outside =>
    have ahead := around.uncovered_after outside
    have left : ∀ segment ∈ uncovered position data back, segment ∈ back := uncovered_subset
    refine ⟨front ++ (position, data) :: uncovered position data back, ?_, ?_, fun place =>
      firstHeld_inserted (agrees (Bool.eq_false_iff.mpr outside)) around.front_before
        around.back_after⟩
    · rw [around.dropWhile_covered, emplace_front ahead, numbered, numbered, numbered,
        List.map_append]
      intro segment member
      have close := (around.back_near segment (left segment member)).2
      rw [Placed.stop] at close
      omega
    · have sorted := List.pairwise_append.mp ranked.sorted
      refine ⟨List.pairwise_append.mpr ⟨sorted.1, List.pairwise_cons.mpr ⟨ahead,
        sorted.2.1.sublist (List.dropWhile_sublist _)⟩, ?_⟩, ?_, ?_, ?_⟩
      · intro earlier member later behind
        rcases List.mem_cons.mp behind with rfl | behind
        · exact around.front_before earlier member
        · exact sorted.2.2 earlier member later (left later behind)
      all_goals
        intro segment member
        rw [List.mem_append, List.mem_cons] at member
        rcases member with member | rfl | member
      · exact ranked.filled segment (List.mem_append_left _ member)
      · exact something
      · exact ranked.filled segment (List.mem_append_right _ (left segment member))
      · exact ranked.after segment (List.mem_append_left _ member)
      · exact here
      · exact ranked.after segment (List.mem_append_right _ (left segment member))
      · exact ranked.near segment (List.mem_append_left _ member)
      · exact near
      · exact ranked.near segment (List.mem_append_right _ (left segment member))

end Buffer

section Segment

variable {cfg : TcpConfig} {seq : UInt32} {data : List UInt8} {nowMs : UInt64}
  {progress : Progress} {base : UInt32} {low next start : Nat} {fed segments : List Placed}

/-- From the next place on, the buffer holds what came first. -/
structure Remembers (base : UInt32) (low next : Nat) (fed : List Placed) (d : Direction)
    (segments : List Placed) : Prop where
  number : d.nextSeq = serial base next
  held : d.ooo = numbered base segments
  ranked : Ranked low segments
  onward : low ≤ next
  near : next < low + 2 ^ 31
  first : ∀ place, next ≤ place → firstHeld segments place = firstHeld fed place

/-- What is delivered from a place on came first, and what is left is remembered. -/
structure DeliversFrom (base : UInt32) (low next : Nat) (fed : List Placed) (data : List UInt8)
    (d : Direction) (reached : Nat) (rest : List Placed) : Prop where
  remembers : Remembers base low reached fed d rest
  onward : reached = next + data.length
  data : ∀ (index : Nat) (byte : UInt8), data[index]? = some byte →
    firstHeld fed (next + index) = some byte

theorem firstHeld_fed {place : Nat} {arriving : Placed} :
    firstHeld (fed ++ [arriving]) place = (firstHeld fed place).or (heldAt place arriving) := by
  rw [firstHeld_append, firstHeld_cons]
  exact congrArg _ Option.or_none

/-- A segment that starts at or before the next place. -/
theorem Remembers.delivered
    (remembers : Remembers base next next fed progress.direction segments)
    (nothing : progress.data = []) (started : start ≤ next) (new : next < start + data.length)
    (near : start + data.length < next + 2 ^ 31) (agrees : Agrees segments (start, data)) :
    DeliversFrom base next next (fed ++ [(start, data)])
      (deliver (data.drop (next - start)) progress).data
      (deliver (data.drop (next - start)) progress).direction (start + data.length) segments := by
  have front : segments.takeWhile (fun segment => decide (segment.1 < start)) = [] := by
    cases segments with
    | nil => rfl
    | cons first rest =>
        have after := remembers.ranked.after first List.mem_cons_self
        exact List.takeWhile_cons_of_neg (by simp; omega)
  unfold deliver
  dsimp only
  rw [nothing, List.nil_append]
  refine ⟨⟨?_, remembers.held, remembers.ranked, by omega, near, fun place past => ?_⟩, ?_, ?_⟩
  · dsimp only
    rw [remembers.number, segEnd_serial, List.length_drop]
    congr 1
    omega
  · rw [firstHeld_fed, heldAt_eq_none.2 (.inr past), Option.or_none]
    exact remembers.first place (by omega)
  · rw [List.length_drop]
    omega
  · intro index byte found
    rw [List.getElem?_drop] at found
    have carried : heldAt (next + index) (start, data) = some byte := by
      rw [heldAt_of_started (by dsimp only; omega), ← found]
      dsimp only
      congr 1
      omega
    rw [firstHeld_fed, ← remembers.first _ (Nat.le_add_right _ _), carried]
    cases there : firstHeld segments (next + index) with
    | none => rfl
    | some other =>
        rw [agrees _ byte other carried (by rw [front]; rfl) there]
        rfl

/-- A segment that lies behind the next place. -/
theorem Remembers.passed (remembers : Remembers base low next fed progress.direction segments)
    (nothing : progress.data = []) (old : start + data.length ≤ next) :
    DeliversFrom base low next (fed ++ [(start, data)]) progress.data progress.direction next
      segments := by
  rw [nothing]
  refine ⟨⟨remembers.number, remembers.held, remembers.ranked, remembers.onward, remembers.near,
    fun place past => ?_⟩, rfl, by simp⟩
  rw [firstHeld_fed, heldAt_eq_none.2 (.inr (by dsimp only; omega)), Option.or_none]
  exact remembers.first place past

/-- A segment past a hole. -/
theorem Remembers.buffered
    (remembers : Remembers base next next fed progress.direction segments)
    (nothing : progress.data = []) (later : next < start) (filled : data ≠ [])
    (near : start + data.length < next + 2 ^ 31)
    (room : progress.direction.oooBytes + data.length ≤ cfg.maxStreamBytes ∧
      progress.memUsed + data.length ≤ cfg.maxMemBytes)
    (unwrapped : ∀ segment ∈ progress.direction.ooo,
      segment.1 < serial base start ↔ seqLt segment.1 (serial base start) = true)
    (agrees : taken cfg (serial base start) data progress = true → Agrees segments (start, data)) :
    ∃ more, DeliversFrom base next next (fed ++ [(start, data)])
      (bufferSegment cfg (serial base start) data nowMs progress).data
      (bufferSegment cfg (serial base start) data nowMs progress).direction next more := by
  have by_position : ∀ segment ∈ segments,
      serial base segment.1 < serial base start ↔ segment.1 < start := by
    intro segment member
    have after := remembers.ranked.after segment member
    have close := remembers.ranked.near segment member
    rw [Placed.stop] at close
    have in_map : (serial base segment.1, segment.2) ∈ progress.direction.ooo := by
      rw [remembers.held]
      exact List.mem_map_of_mem member
    rw [unwrapped _ in_map, seqLt_serial base (by omega) (by omega)]
  have number := remembers.number
  have positive := List.length_pos_iff.mpr filled
  have fresh : dominated
      (progress.direction.ooo.takeWhile fun segment => decide (segment.1 < serial base start))
      (progress.direction.ooo.dropWhile fun segment => decide (segment.1 < serial base start))
      (serial base start) data = false → taken cfg (serial base start) data progress = true := by
    intro new
    have past : seqLeq (segEnd (serial base start) data) progress.direction.nextSeq = false := by
      rw [number, segEnd_serial, Bool.eq_false_iff, Ne, seqLeq_serial base (by omega) (by omega)]
      omega
    have ahead : seqLt (serial base start) progress.direction.nextSeq = false := by
      rw [number, Bool.eq_false_iff, Ne, seqLt_serial base (by omega) (by omega)]
      omega
    have apart : serial base start ≠ progress.direction.nextSeq := by
      rw [number, Ne, serial_inj base (by omega) (by omega)]
      omega
    unfold taken
    rw [new, past, ahead]
    simp [apart, room]
  obtain ⟨more, added⟩ := remembers.ranked.insert remembers.held filled (Nat.le_of_lt later) near
    by_position fun new => agrees (fresh new)
  have buffers := @bufferSegment_onlyBuffers cfg (serial base start) data nowMs progress
  refine ⟨more, ⟨buffers.nextSeq.trans number, ?_, added.ranked, Nat.le_refl _, by omega,
    fun place past => ?_⟩, ?_, ?_⟩
  · rw [bufferSegment_ooo room]
    exact added.held
  · rw [added.first, firstHeld_fed, remembers.first place past]
  · rw [buffers.data, nothing]
    rfl
  · rw [buffers.data, nothing]
    simp

/-- The segment lies near the expected number, its number compares with the buffered ones as
its place does, and it carries what is buffered wherever it would come before that. -/
structure CarriesHeld (cfg : TcpConfig) (seq : UInt32) (data : List UInt8) (progress : Progress)
    (held : List Placed) (next start : Nat) : Prop where
  near : start + data.length < next + 2 ^ 31
  unwrapped : ¬ seqLeq seq progress.direction.nextSeq = true →
    ∀ segment ∈ progress.direction.ooo, segment.1 < seq ↔ seqLt segment.1 seq = true
  agrees : start ≤ next ∨ taken cfg seq data progress = true → Agrees held (start, data)

theorem Remembers.placed
    (remembers : Remembers base next next fed progress.direction segments)
    (nothing : progress.data = []) (filled : data ≠ []) (behind : next ≤ start + 2 ^ 31)
    (carries : CarriesHeld cfg (serial base start) data progress segments next start)
    (uncapped : (placeSegment cfg (serial base start) data nowMs progress).evicted = false) :
    ∃ reached more, DeliversFrom base next next (fed ++ [(start, data)])
      (placeSegment cfg (serial base start) data nowMs progress).data
      (placeSegment cfg (serial base start) data nowMs progress).direction reached more := by
  have near := carries.near
  unfold placeSegment at uncapped ⊢
  dsimp only at uncapped ⊢
  rw [remembers.number, segEnd_serial] at uncapped ⊢
  split at uncapped
  next old =>
    rw [if_pos old]
    rw [seqLeq_serial base (by omega) (by omega)] at old
    exact ⟨next, segments, remembers.passed nothing old⟩
  next new =>
    rw [if_neg new]
    rw [seqLeq_serial base (by omega) (by omega), Nat.not_le] at new
    split at uncapped
    next overlaps =>
      rw [if_pos overlaps]
      rw [seqLt_serial base (by omega) (by omega)] at overlaps
      rw [serial_sub_toNat base (Nat.le_of_lt overlaps) (by omega)]
      exact ⟨_, _, remembers.delivered nothing (Nat.le_of_lt overlaps) new near
        (carries.agrees (.inl (Nat.le_of_lt overlaps)))⟩
    next apart =>
      rw [if_neg apart]
      rw [seqLt_serial base (by omega) (by omega)] at apart
      split at uncapped
      next level =>
        rw [if_pos level]
        rw [serial_inj base (by omega) (by omega)] at level
        subst level
        have there := remembers.delivered nothing (Nat.le_refl _) new near
          (carries.agrees (.inl (Nat.le_refl _)))
        rw [Nat.sub_self, List.drop_zero] at there
        exact ⟨_, _, there⟩
      next ahead =>
        rw [if_neg ahead]
        rw [serial_inj base (by omega) (by omega)] at ahead
        have later : next < start := by omega
        have past : ¬ seqLeq (serial base start) progress.direction.nextSeq = true := by
          rw [remembers.number, seqLeq_serial base (by omega) (by omega)]
          omega
        have room : progress.direction.oooBytes + data.length ≤ cfg.maxStreamBytes ∧
            progress.memUsed + data.length ≤ cfg.maxMemBytes := by
          by_contra full
          unfold bufferSegment at uncapped
          dsimp only at uncapped
          rw [if_neg full] at uncapped
          cases uncapped
        exact ⟨next, remembers.buffered nothing later filled near room (carries.unwrapped past)
          fun new => carries.agrees (.inr new)⟩

theorem DeliversFrom.drained (delivers : DeliversFrom base next next fed progress.data progress.direction
      start segments) :
    ∃ reached rest, DeliversFrom base reached next fed (drainSegments progress).data
        (drainSegments progress).direction reached rest ∧
      (∀ segment ∈ rest, reached < segment.1) ∧ reached < next + 2 ^ 31 := by
  have remembers := delivers.remembers
  have onward := delivers.onward
  have near := remembers.near
  unfold drainSegments
  dsimp only
  split
  next none =>
    have none_held : segments = [] := by
      have held := remembers.held
      rw [none] at held
      exact List.map_eq_nil_iff.mp held.symm
    subst none_held
    exact ⟨start, [], ⟨⟨remembers.number, remembers.held, ⟨.nil, by simp, by simp, by simp⟩,
      Nat.le_refl _, by omega, remembers.first⟩, onward, delivers.data⟩, by simp, near⟩
  next some =>
    rw [remembers.held, remembers.number]
    obtain ⟨reached, rest, drained⟩ := @drainOoo_first base _ _ _ remembers.ranked remembers.onward near
    have further := drained.onward
    have kept := remembers.ranked.sublist drained.suffix.sublist
    refine ⟨reached, rest, ⟨⟨drained.number, drained.remaining, ⟨kept.sorted, kept.filled,
      fun segment member => Nat.le_of_lt (drained.ahead segment member), fun segment member => ?_⟩,
      Nat.le_refl _, by omega, fun place past => ?_⟩, ?_, ?_⟩, drained.ahead, drained.near⟩
    · have := kept.near segment member
      omega
    · rw [drained.kept place past, remembers.first place (by omega)]
    · dsimp only
      rw [List.length_append]
      omega
    · intro index byte found
      dsimp only at found
      rw [List.getElem?_append] at found
      split at found
      next inside => exact delivers.data index byte found
      next outside =>
        have later := drained.data _ byte found
        rw [remembers.first _ (Nat.le_add_right _ _)] at later
        rw [← later]
        congr 1
        omega

/-- One data segment that hits no cap and skips no hole. -/
theorem Remembers.added
    (remembers : Remembers base next next fed progress.direction segments)
    (nothing : progress.data = []) (filled : data ≠ []) (behind : next ≤ start + 2 ^ 31)
    (carries : CarriesHeld cfg (serial base start) data progress segments next start)
    (uncapped : (placeSegment cfg (serial base start) data nowMs progress).evicted = false)
    (unskipped : skipGap cfg nowMs
        (placeSegment cfg (serial base start) data nowMs progress).direction =
      (placeSegment cfg (serial base start) data nowMs progress).direction) :
    ∃ reached rest, DeliversFrom base reached next (fed ++ [(start, data)])
        (addData cfg (serial base start) data nowMs progress).data
        (addData cfg (serial base start) data nowMs progress).direction reached rest ∧
      (∀ segment ∈ rest, reached < segment.1) ∧ reached < next + 2 ^ 31 := by
  obtain ⟨reached, more, delivers⟩ :=
    remembers.placed nothing filled behind carries uncapped
  unfold addData
  rw [if_neg filled]
  dsimp only
  rw [unskipped]
  exact delivers.drained

/-- The end of a direction takes one number, and no buffered segment starts before it. -/
theorem Remembers.finished {d : Direction}
    (remembers : Remembers base next next fed d segments) (flags : UInt8)
    (ahead : d.finSeen = false → ∀ segment ∈ segments, next < segment.1) :
    ∃ last, Remembers base last last fed (finDirection flags d) segments ∧
      next ≤ last ∧ last ≤ next + 1 ∧
      ((finDirection flags d).finSeen = false → ∀ segment ∈ segments, last < segment.1) := by
  unfold finDirection
  split
  next ends =>
    rw [Bool.and_eq_true, Bool.not_eq_true'] at ends
    have clear := ahead ends.2
    refine ⟨next + 1, ⟨?_, remembers.held, ⟨remembers.ranked.sorted, remembers.ranked.filled,
      fun segment member => clear segment member, fun segment member => ?_⟩, Nat.le_refl _,
      by omega, fun place past => remembers.first place (by omega)⟩, by omega, Nat.le_refl _,
      fun seen => by cases seen⟩
    · rw [← serial_succ, ← remembers.number]
    · have := remembers.ranked.near segment member
      omega
  next => exact ⟨next, remembers, Nat.le_refl _, by omega, ahead⟩

end Segment

/-- A reassembly with the segments that one direction was fed, oldest first, and the place of
its next number. -/
structure SeenWatch where
  tcp : TcpReassembly
  fed : List Placed
  next : Nat

def SeenWatch.initial : SeenWatch := ⟨.empty, [], 2 ^ 31⟩

/-- The segments that were fed when a packet is done. -/
def SeenWatch.fedWith (watch : SeenWatch) (cfg : TcpConfig) (side : Side) (pp : ParsedPacket) :
    List Placed :=
  if side.seesData pp then
    watch.fed ++ [(placeOf watch.next (side.meets cfg watch.tcp pp).direction.nextSeq pp.tcpSeq,
      pp.payload)]
  else watch.fed

/-- Places count from half the range on, so that what lies behind the first number has one. -/
def SeenWatch.restart (tcp : TcpReassembly) : SeenWatch := ⟨tcp, [], 2 ^ 31⟩

def seenStep (cfg : TcpConfig) (side : Side) (watch : SeenWatch) : TcpEvent → Option SeenWatch
  | .segment packet nowMs =>
      let tcp := (addSegment cfg watch.tcp packet nowMs).1
      some (if (side.direction tcp).initialized = false then .restart tcp
        else if side.sees packet then
          ⟨tcp, watch.fedWith cfg side packet, watch.next +
            ((side.direction tcp).nextSeq - (side.meets cfg watch.tcp packet).direction.nextSeq).toNat⟩
        else { watch with tcp })
  | .expire nowMs =>
      let tcp := (watch.tcp.expire cfg.idleTimeoutMs nowMs).1
      some (if (side.direction tcp).initialized = false then .restart tcp else { watch with tcp })

/-- No cap is hit and no hole is skipped. -/
def MeetsNoLimit (cfg : TcpConfig) (side : Side) (watch : SeenWatch) : TcpEvent → Prop
  | .segment packet nowMs => side.seesData packet = true →
      let placed := placeSegment cfg packet.tcpSeq packet.payload nowMs
        (side.meets cfg watch.tcp packet)
      placed.evicted = false ∧ skipGap cfg nowMs placed.direction = placed.direction
  | .expire _ => True

/-- A data segment carries what is buffered where it would come before that. -/
def RepeatsHeld (cfg : TcpConfig) (side : Side) (watch : SeenWatch) : TcpEvent → Prop
  | .segment packet _ => side.seesData packet = true →
      let met := side.meets cfg watch.tcp packet
      CarriesHeld cfg packet.tcpSeq packet.payload met
        (met.direction.ooo.map fun segment =>
          (placeOf watch.next met.direction.nextSeq segment.1, segment.2))
        watch.next (placeOf watch.next met.direction.nextSeq packet.tcpSeq)
  | .expire _ => True

/-- Each byte that a packet delivers is the one of the first segment that covers its place. -/
def DeliversFirstSeen (cfg : TcpConfig) (side : Side) (watch : SeenWatch) : TcpEvent → Prop
  | .segment packet nowMs => side.sees packet = true → ∀ (index : Nat) (byte : UInt8),
      (addSegment cfg watch.tcp packet nowMs).2.data[index]? = some byte →
        firstHeld (watch.fedWith cfg side packet) (watch.next + index) = some byte
  | .expire _ => True

section Run

variable {cfg : TcpConfig} {side : Side} {watch later : SeenWatch} {pp : ParsedPacket}
  {nowMs : UInt64} {d : Direction} {base : UInt32} {next : Nat} {fed segments : List Placed}

/-- How a direction stands to the segments that it was fed. -/
inductive Mindful (fed : List Placed) (next : Nat) : Direction → Prop where
  | waiting (nothing : fed = []) (begins : next = 2 ^ 31) : Mindful fed next .fresh
  | going {d : Direction} {base : UInt32} {segments : List Placed}
      (initialized : d.initialized = true) (far : 2 ^ 31 ≤ next)
      (remembers : Remembers base next next fed d segments)
      (ahead : d.finSeen = false → ∀ segment ∈ segments, next < segment.1) : Mindful fed next d

theorem Mindful.started (mindful : Mindful fed next d) (seq : UInt32) (flags : UInt8) :
    2 ^ 31 ≤ next ∧ (initDirection seq flags d).initialized = true ∧
      ∃ base segments, Remembers base next next fed (initDirection seq flags d) segments ∧
        ((initDirection seq flags d).finSeen = false → ∀ segment ∈ segments, next < segment.1) := by
  cases mindful with
  | waiting nothing begins =>
      subst nothing begins
      refine ⟨Nat.le_refl _, initDirection_initialized seq flags _,
        (seq + if hasFlag flags tcpSyn then 1 else 0) - UInt32.ofNat (2 ^ 31), [],
        ⟨?_, rfl, ⟨.nil, by simp, by simp, by simp⟩, Nat.le_refl _, by omega, fun _ _ => rfl⟩,
        by simp⟩
      unfold serial
      rw [UInt32.sub_add_cancel]
      rfl
  | going initialized far remembers ahead =>
      have same : initDirection seq flags d = d := if_pos initialized
      rw [same]
      exact ⟨far, initialized, _, _, remembers, ahead⟩

/-- The places of the buffered segments are those that are remembered. -/
theorem Remembers.places (remembers : Remembers base next next fed d segments) :
    (d.ooo.map fun segment => (placeOf next d.nextSeq segment.1, segment.2)) = segments := by
  rw [remembers.held, remembers.number, numbered, List.map_map]
  refine (List.map_congr_left fun segment member => ?_).trans (List.map_id segments)
  have after := remembers.ranked.after segment member
  have near := remembers.ranked.near segment member
  dsimp only [Placed.stop] at near
  have place : placeOf next (serial base next) (serial base segment.1) = segment.1 := by
    unfold placeOf
    rw [serial_distance_of_near base (by omega) (by omega)]
    omega
  exact Prod.ext place rfl

/-- The direction after its flags, with the place that its number has moved to. -/
theorem Remembers.settled {reached : Nat} {nextSeq : UInt32} (flags : UInt8)
    (number : nextSeq = serial base next) (far : 2 ^ 31 ≤ next) (onward : next ≤ reached)
    (near : reached < next + 2 ^ 31) (initialized : d.initialized = true)
    (remembers : Remembers base reached reached fed d segments)
    (ahead : d.finSeen = false → ∀ segment ∈ segments, reached < segment.1) :
    (finDirection flags d).initialized = true ∧
      Mindful fed (next + ((finDirection flags d).nextSeq - nextSeq).toNat)
        (finDirection flags d) := by
  obtain ⟨last, finished, least, most, clear⟩ := remembers.finished flags ahead
  have begun : (finDirection flags d).initialized = true := by
    unfold finDirection
    split <;> exact initialized
  refine ⟨begun, ?_⟩
  rw [finished.number, number, serial_sub_toNat base (by omega) (by omega),
    Nat.add_sub_cancel' (by omega)]
  exact .going begun (by omega) finished clear

/-- A packet of the direction that carries no data. -/
theorem Mindful.flagged (mindful : Mindful watch.fed watch.next (side.direction watch.tcp)) :
    let met := (side.meets cfg watch.tcp pp).direction
    (finDirection pp.tcpFlags met).initialized = true ∧
      Mindful watch.fed (watch.next + ((finDirection pp.tcpFlags met).nextSeq - met.nextSeq).toNat)
        (finDirection pp.tcpFlags met) := by
  obtain ⟨far, initialized, base, segments, remembers, ahead⟩ :=
    mindful.started pp.tcpSeq pp.tcpFlags
  exact remembers.settled pp.tcpFlags remembers.number far (Nat.le_refl _) (by omega) initialized
    ahead

/-- What a data segment delivers, and how it leaves its direction. -/
def Minds (fed : List Placed) (next : Nat) (nextSeq : UInt32) (flags : UInt8)
    (added : Progress) : Prop :=
  (∀ (index : Nat) (byte : UInt8), added.data[index]? = some byte →
      firstHeld fed (next + index) = some byte) ∧
    (finDirection flags added.direction).initialized = true ∧
    Mindful fed (next + ((finDirection flags added.direction).nextSeq - nextSeq).toNat)
      (finDirection flags added.direction)

theorem Remembers.through {met : Progress} {seq : UInt32} {data : List UInt8} {start : Nat}
    (flags : UInt8) (far : 2 ^ 31 ≤ next) (initialized : met.direction.initialized = true)
    (remembers : Remembers base next next fed met.direction segments)
    (nothing : met.data = []) (filled : data ≠ []) (same : serial base start = seq)
    (behind : next ≤ start + 2 ^ 31)
    (carries : CarriesHeld cfg seq data met segments next start)
    (uncapped : (placeSegment cfg seq data nowMs met).evicted = false)
    (unskipped : skipGap cfg nowMs (placeSegment cfg seq data nowMs met).direction =
      (placeSegment cfg seq data nowMs met).direction) :
    Minds (fed ++ [(start, data)]) next met.direction.nextSeq flags
      (addData cfg seq data nowMs met) := by
  subst same
  obtain ⟨reached, rest, delivers, clear, near⟩ :=
    remembers.added nothing filled behind carries uncapped unskipped
  have onward := delivers.onward
  exact ⟨delivers.data, delivers.remembers.settled flags remembers.number far (by omega) near
    (addData_flags.initialized.trans initialized) fun _ => clear⟩

/-- A data segment of the direction. -/
theorem Mindful.data (mindful : Mindful watch.fed watch.next (side.direction watch.tcp))
    (data : side.seesData pp = true) (filled : pp.payload ≠ [])
    (free : MeetsNoLimit cfg side watch (.segment pp nowMs))
    (repeats : RepeatsHeld cfg side watch (.segment pp nowMs)) :
    let met := side.meets cfg watch.tcp pp
    Minds (watch.fedWith cfg side pp) watch.next met.direction.nextSeq pp.tcpFlags
      (addData cfg pp.tcpSeq pp.payload nowMs met) := by
  obtain ⟨far, initialized, base, segments, remembers, _⟩ :=
    mindful.started pp.tcpSeq pp.tcpFlags
  obtain ⟨same, behind, _⟩ := @serial_placeOf base pp.tcpSeq watch.next far
  obtain ⟨uncapped, unskipped⟩ := free data
  have carries := repeats data
  dsimp only [Side.meets, Progress.start] at carries
  rw [remembers.places] at carries
  rw [← remembers.number] at same behind
  rw [SeenWatch.fedWith, if_pos data]
  exact @Remembers.through cfg nowMs base watch.next watch.fed segments
    (side.meets cfg watch.tcp pp) pp.tcpSeq pp.payload _ pp.tcpFlags far initialized remembers rfl
    filled same behind carries uncapped unskipped

/-- What is watched of a direction that a packet leaves, gone or as it went through. -/
theorem Mindful.left {fedNow : List Placed} {nextSeq : UInt32} {tcp : TcpReassembly}
    {through : Direction} (goes : side.direction tcp = through ∨ side.direction tcp = .fresh)
    (initialized : through.initialized = true)
    (mindful : Mindful fedNow (next + (through.nextSeq - nextSeq).toNat) through) :
    let left := if (side.direction tcp).initialized = false then SeenWatch.restart tcp
      else ⟨tcp, fedNow, next + ((side.direction tcp).nextSeq - nextSeq).toNat⟩
    Mindful left.fed left.next (side.direction left.tcp) := by
  rcases goes with here | gone
  · rw [here, initialized, if_neg Bool.true_eq_false.mp]
    dsimp only
    rw [here]
    exact mindful
  · have idle : Direction.fresh.initialized = false := rfl
    rw [gone, if_pos idle]
    dsimp only [SeenWatch.restart]
    rw [gone]
    exact .waiting rfl rfl

/-- A direction that nothing was done to, or that is gone. -/
theorem Mindful.kept {tcp : TcpReassembly}
    (mindful : Mindful watch.fed watch.next (side.direction watch.tcp))
    (kept : side.direction tcp = side.direction watch.tcp ∨ side.direction tcp = .fresh) :
    let left := if (side.direction tcp).initialized = false then SeenWatch.restart tcp
      else { watch with tcp }
    Mindful left.fed left.next (side.direction left.tcp) := by
  dsimp only
  split
  next idle =>
    dsimp only [SeenWatch.restart]
    rcases kept with same | gone
    · rw [same] at idle ⊢
      generalize side.direction watch.tcp = d at mindful idle
      cases mindful with
      | waiting => exact .waiting rfl rfl
      | going initialized =>
          rw [initialized] at idle
          cases idle
    · rw [gone]
      exact .waiting rfl rfl
  next busy =>
    rcases kept with same | gone
    · rw [same]
      exact mindful
    · rw [gone] at busy
      exact absurd rfl busy

/-- What a run keeps, and what its packets deliver. -/
theorem seenStep_mindful {event : TcpEvent}
    (mindful : Mindful watch.fed watch.next (side.direction watch.tcp))
    (free : MeetsNoLimit cfg side watch event) (repeats : RepeatsHeld cfg side watch event)
    (here : seenStep cfg side watch event = some later) :
    Mindful later.fed later.next (side.direction later.tcp) ∧
      DeliversFirstSeen cfg side watch event := by
  cases event with
  | expire nowMs =>
      obtain rfl := Option.some.inj here
      exact ⟨mindful.kept expire_kept, trivial⟩
  | segment packet nowMs =>
      obtain rfl := Option.some.inj here
      cases seen : side.sees packet with
      | false =>
          rw [if_neg Bool.false_ne_true]
          refine ⟨mindful.kept (addSegment_kept seen), fun other => ?_⟩
          rw [seen] at other
          cases other
      | true =>
          rw [if_pos rfl]
          cases data : side.seesData packet with
          | true =>
              obtain ⟨filled, going⟩ : packet.payload ≠ [] ∧
                  hasFlag packet.tcpFlags tcpRst = false := by
                rw [Side.seesData, seen] at data
                simpa using data
              obtain ⟨delivered, goes⟩ :=
                @addSegment_meets cfg side watch.tcp packet nowMs seen going
              obtain ⟨first, initialized, left⟩ := mindful.data data filled free repeats
              refine ⟨left.left goes initialized, fun _ index byte found => ?_⟩
              rw [delivered] at found
              exact first index byte found
          | false =>
              have same : watch.fedWith cfg side packet = watch.fed := by
                rw [SeenWatch.fedWith, data, if_neg Bool.false_ne_true]
              rw [same]
              have silent : (addSegment cfg watch.tcp packet nowMs).2.data = [] ∧
                  (side.direction (addSegment cfg watch.tcp packet nowMs).1 =
                      finDirection packet.tcpFlags (side.meets cfg watch.tcp packet).direction ∨
                    side.direction (addSegment cfg watch.tcp packet nowMs).1 = .fresh) := by
                cases reset : hasFlag packet.tcpFlags tcpRst with
                | true =>
                    obtain ⟨nothing, gone⟩ := @addSegment_resets cfg side watch.tcp packet nowMs seen reset
                    exact ⟨nothing, .inr gone⟩
                | false =>
                    have empty : packet.payload = [] := by
                      rw [Side.seesData, seen, reset] at data
                      simpa using data
                    have met := @addSegment_meets cfg side watch.tcp packet nowMs seen reset
                    unfold addData at met
                    rw [if_pos empty] at met
                    exact met
              obtain ⟨initialized, left⟩ := mindful.flagged
              refine ⟨left.left silent.2 initialized, fun _ index byte found => ?_⟩
              rw [silent.1] at found
              cases found

/-- In every run from the empty table that hits no cap and skips no hole, each byte that a
direction delivers for a place is the one of the first segment that covers it, if every data
segment carries what is buffered wherever it would come before that. -/
theorem first_seen_wins_of_repeats (cfg : TcpConfig) (side : Side)
    {transitions : List (Transition SeenWatch TcpEvent)} {last : SeenWatch}
    (run : Execution (seenStep cfg side) .initial transitions last)
    (free : ∀ transition ∈ transitions, MeetsNoLimit cfg side transition.before transition.event)
    (repeats : ∀ transition ∈ transitions, RepeatsHeld cfg side transition.before transition.event) :
    ∀ transition ∈ transitions, DeliversFirstSeen cfg side transition.before transition.event := by
  have kept : ∀ {watch later : SeenWatch} {event : TcpEvent},
      Mindful watch.fed watch.next (side.direction watch.tcp) →
        MeetsNoLimit cfg side watch event ∧ RepeatsHeld cfg side watch event →
          seenStep cfg side watch event = some later →
            Mindful later.fed later.next (side.direction later.tcp) ∧
              DeliversFirstSeen cfg side watch event :=
    fun mindful careful here => seenStep_mindful mindful careful.1 careful.2 here
  exact run.forall_transitions (fun mindful careful here => (kept mindful careful here).1)
    (fun mindful careful here => (kept mindful careful here).2) (.waiting rfl rfl)
    fun transition member => ⟨free transition member, repeats transition member⟩

end Run

section Samples

instance (held : List Placed) (arriving : Placed) : Decidable (Agrees held arriving) :=
  decidable_of_iff (∀ index < arriving.2.length,
      firstHeld (held.takeWhile fun segment => decide (segment.1 < arriving.1))
          (arriving.1 + index) = none →
        ∀ other ∈ firstHeld held (arriving.1 + index), arriving.2[index]? = some other) (by
    constructor
    · intro agree place byte other here before there
      unfold heldAt at here
      split at here
      next started =>
        obtain ⟨inside, _⟩ := List.getElem?_eq_some_iff.mp here
        rw [← Nat.add_sub_cancel' started] at before there
        rw [agree _ inside before other there] at here
        exact (Option.some.inj here).symm
      next => cases here
    · intro agrees index inside before other there
      have found : arriving.2[index]? = some arriving.2[index] := List.getElem?_eq_getElem inside
      rw [found, agrees _ arriving.2[index] other ?_ before there]
      rw [heldAt_of_started (Nat.le_add_right _ _), Nat.add_sub_cancel_left, found])

instance (cfg : TcpConfig) (seq : UInt32) (data : List UInt8) (progress : Progress)
    (held : List Placed) (next start : Nat) :
    Decidable (CarriesHeld cfg seq data progress held next start) :=
  decidable_of_iff
    (start + data.length < next + 2 ^ 31 ∧
      (¬ seqLeq seq progress.direction.nextSeq = true → ∀ segment ∈ progress.direction.ooo,
        (segment.1 < seq ↔ seqLt segment.1 seq = true)) ∧
      (start ≤ next ∨ taken cfg seq data progress = true → Agrees held (start, data)))
    ⟨fun all => ⟨all.1, all.2.1, all.2.2⟩,
      fun carries => ⟨carries.near, carries.unwrapped, carries.agrees⟩⟩

instance (cfg : TcpConfig) (side : Side) (watch : SeenWatch) :
    (event : TcpEvent) → Decidable (RepeatsHeld cfg side watch event)
  | .segment _ _ => inferInstanceAs (Decidable (_ = true → CarriesHeld _ _ _ _ _ _ _))
  | .expire _ => inferInstanceAs (Decidable True)

instance (cfg : TcpConfig) (side : Side) (watch : SeenWatch) :
    (event : TcpEvent) → Decidable (MeetsNoLimit cfg side watch event)
  | .segment _ _ => inferInstanceAs (Decidable (_ = true → _ = false ∧ _ = _))
  | .expire _ => inferInstanceAs (Decidable True)

instance (cfg : TcpConfig) (side : Side) (watch : SeenWatch) :
    (event : TcpEvent) → Decidable (DeliversFirstSeen cfg side watch event)
  | .segment packet nowMs =>
      decidable_of_iff (side.sees packet = true →
          ∀ index < (addSegment cfg watch.tcp packet nowMs).2.data.length,
            firstHeld (watch.fedWith cfg side packet) (watch.next + index) =
              (addSegment cfg watch.tcp packet nowMs).2.data[index]?) (by
        unfold DeliversFirstSeen
        constructor
        · intro first seen index byte found
          obtain ⟨inside, _⟩ := List.getElem?_eq_some_iff.mp found
          rw [first seen index inside, found]
        · intro first seen index inside
          rw [first seen index _ (List.getElem?_eq_getElem inside), List.getElem?_eq_getElem inside])
  | .expire _ => inferInstanceAs (Decidable True)

abbrev seenRun (events : List TcpEvent) : Option (List (Transition SeenWatch TcpEvent) × SeenWatch) :=
  execute (seenStep .default gapSide) .initial events

/-- A buffered byte comes again with another value, then with its own in front of new data. -/
def repeatedEvents : List TcpEvent :=
  [.segment (samplePacket 99 tcpSyn []) 0, .segment (samplePacket 101 0 [98]) 1,
    .segment (samplePacket 101 0 [120]) 2, .segment (samplePacket 100 0 [97, 98, 99]) 3]

/-- A segment runs over a buffered byte. -/
def overrunEvents : List TcpEvent :=
  [.segment (samplePacket 99 tcpSyn []) 0, .segment (samplePacket 101 0 [98]) 1,
    .segment (samplePacket 100 0 [97, 120]) 2]

def repeatedTrace : List (Transition SeenWatch TcpEvent) × SeenWatch :=
  (seenRun repeatedEvents).get (by decide)

def overrunTrace : List (Transition SeenWatch TcpEvent) × SeenWatch :=
  (seenRun overrunEvents).get (by decide)

theorem first_seen_wins_sample :
    seenRun repeatedEvents = some repeatedTrace ∧
      ∀ transition ∈ repeatedTrace.1,
        DeliversFirstSeen .default gapSide transition.before transition.event := by
  have ran : seenRun repeatedEvents = some repeatedTrace := (Option.some_get _).symm
  exact ⟨ran, first_seen_wins_of_repeats .default gapSide (execution_of_execute ran)
    (by decide) (by decide)⟩

theorem later_segment_overruns :
    ¬ ∀ (cfg : TcpConfig) (side : Side) (transitions : List (Transition SeenWatch TcpEvent))
        (last : SeenWatch), Execution (seenStep cfg side) .initial transitions last →
        (∀ transition ∈ transitions,
          MeetsNoLimit cfg side transition.before transition.event) →
        ∀ transition ∈ transitions,
          DeliversFirstSeen cfg side transition.before transition.event := by
  intro first
  have ran : seenRun overrunEvents = some overrunTrace := (Option.some_get _).symm
  have every := first .default gapSide overrunTrace.1 overrunTrace.2 (execution_of_execute ran)
    (by decide)
  exact absurd every (by decide)

end Samples

end Idsm.EthProbe
