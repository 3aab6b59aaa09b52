import Idsm.Foundation.Execution
import Idsm.Foundation.Lines
import Idsm.Managerd.AlertQueue
import Idsm.Managerd.SignedBundleProperties

/-! The cursors of the queue never pass a line that has not been returned, as long as
no emptied log is left with a cursor into it. -/

set_option autoImplicit false

namespace Idsm.Managerd

open Idsm.Foundation

section Reading

/-- A line that the reader returns as it was stored. -/
def CleanLine (line : List UInt8) : Prop := line ≠ [] ∧ 0 ∉ line ∧ 10 ∉ line

instance (line : List UInt8) : Decidable (CleanLine line) :=
  inferInstanceAs (Decidable (line ≠ [] ∧ 0 ∉ line ∧ 10 ∉ line))

/-- A line without the newline that ends it. -/
def textOf (rawLine : List UInt8) : List UInt8 :=
  if rawLine.getLast? = some 10 then rawLine.dropLast else rawLine

theorem lineOf_eq (rawLine : List UInt8) : AlertQueue.lineOf rawLine = textOf rawLine ++ [10] := by
  unfold AlertQueue.lineOf textOf
  split
  next ended => exact (List.dropLast_append_getLast? 10 ended).symm
  next => rfl

theorem getline_line {line rest : List UInt8} (clean : CleanLine line) :
    getline (line ++ 10 :: rest) = some (line ++ [10], rest) := by
  have inside : ∀ byte ∈ line, decide (byte ≠ 10) = true := by
    intro byte member
    exact decide_eq_true fun same => clean.2.2 (same ▸ member)
  have ends : (10 :: rest).dropWhile (fun byte => decide (byte ≠ 10)) = 10 :: rest := by simp
  have starts : (10 :: rest).takeWhile (fun byte => decide (byte ≠ 10)) = [] := by simp
  obtain ⟨first, others, split⟩ := List.exists_cons_of_ne_nil clean.1
  have nonempty : line ++ 10 :: rest = first :: (others ++ 10 :: rest) := by rw [split]; rfl
  unfold getline
  rw [List.dropWhile_append_of_pos inside, ends, List.takeWhile_append_of_pos inside, starts,
    List.append_nil, nonempty]

theorem lineText_line {line : List UInt8} (clean : CleanLine line) :
    (line ++ [10]).takeWhile (fun byte => decide (byte ≠ 0)) = line ++ [10] := by
  apply List.takeWhile_eq_self_iff.mpr
  intro byte member
  obtain inside | last := List.mem_append.mp member
  · exact decide_eq_true fun same => clean.2.1 (same ▸ inside)
  · rw [List.mem_singleton.mp last]
    rfl

theorem readLines_unlines {lines : List (List UInt8)} {fuel max : Nat}
    (clean : ∀ line ∈ lines, CleanLine line) (enough : lines.length ≤ fuel) :
    readLines fuel max (unlines lines) =
      (lines.take max, (unlines (lines.take max)).length) := by
  induction lines generalizing fuel max with
  | nil =>
      rw [List.take_nil]
      cases fuel with
      | zero => rfl
      | succ fuel =>
          cases max with
          | zero => rfl
          | succ max => rfl
  | cons line lines ih =>
      obtain ⟨here, later⟩ := List.forall_mem_cons.mp clean
      cases fuel with
      | zero => exact absurd enough (Nat.not_succ_le_zero _)
      | succ fuel =>
          cases max with
          | zero => rfl
          | succ max =>
              have rest := @ih fuel max later (Nat.le_of_succ_le_succ enough)
              rw [unlines_cons, readLines, getline_line here]
              simp only [lineText_line here, List.getLast?_append, List.getLast?_singleton,
                Option.some_or, if_true, List.dropLast_concat, here.1, if_false, rest]
              rw [List.take_succ_cons, unlines_cons]
              simp only [List.length_append, List.length_cons, List.length_nil]
              rw [Nat.add_assoc, Nat.add_comm 1]

theorem scanUnsigned_cursorText (cursor : Nat) : scanUnsigned (cursorText cursor) = some cursor := by
  obtain ⟨first, rest, written, digits, total⟩ := decimal_bytes cursor
  have digit := digits first List.mem_cons_self
  have whole : (first :: rest).dropWhile isSpace = first :: rest := by
    rw [List.dropWhile_cons_of_neg (by simp [isSpace_digit digit])]
  have minus : ((first :: rest).head? == some (45 : UInt8)) = false := by
    simp [(unsigned_digit digit).1]
  have plus : ((first :: rest).head? == some (43 : UInt8)) = false := by
    simp [(unsigned_digit digit).2]
  have taken : (first :: rest).takeWhile isDigit = first :: rest :=
    List.takeWhile_eq_self_iff.mpr digits
  simp only [scanUnsigned, cursorText, written, whole, minus, plus, Bool.or_false,
    Bool.false_eq_true, if_false, taken, total, List.cons_ne_nil]

end Reading

section Layout

variable (stored done : List UInt8 → Nat → Prop)

/-- Every stored line that starts before the limit is done. Positions count from the first
byte ever appended. -/
def Covered (limit : Nat) : Prop := ∀ line start, stored line start → start < limit → done line start

/-- The log is clean lines, the offsets are boundaries of them, and the stored lines that are
not cut off stand where they were stored. -/
structure AlertQueue.Laid (queue : AlertQueue) (lines : List (List UInt8)) : Prop where
  log : queue.log = unlines lines
  clean : ∀ line ∈ lines, CleanLine line
  cursor : LineBoundary lines queue.cursor
  pendingEnd : LineBoundary lines queue.pendingEnd
  persisted : LineBoundary lines queue.persisted
  placed : ∀ line start, stored line start → queue.discarded ≤ start →
    ∃ index, lines[index]? = some line ∧ start = queue.discarded + lineOffset lines index

/-- Both cursors, in memory and on file, only pass what is done. -/
structure AlertQueue.Kept (queue : AlertQueue) : Prop where
  laid : ∃ lines, queue.Laid stored lines
  cursor : Covered stored done (queue.discarded + queue.cursor)
  persisted : Covered stored done (queue.discarded + queue.persisted)

variable {stored done : List UInt8 → Nat → Prop} {queue : AlertQueue}

theorem AlertQueue.kept_empty (fresh : ∀ line start, ¬ stored line start) :
    AlertQueue.empty.Kept stored done where
  laid := ⟨[], rfl, fun _ impossible => absurd impossible List.not_mem_nil, .zero, .zero, .zero,
    fun line start found => absurd found (fresh line start)⟩
  cursor := fun line start found => absurd found (fresh line start)
  persisted := fun line start found => absurd found (fresh line start)

theorem persisted_cursorText (queue : AlertQueue) (cursor : Nat)
    (cursorTmp : Option (List UInt8)) :
    AlertQueue.persisted { queue with cursorFile := some (cursorText cursor), cursorTmp } =
      cursor := by
  rw [AlertQueue.persisted, AlertQueue.loadCursor, Option.bind_some, scanUnsigned_cursorText,
    Option.getD_some]

namespace AlertQueue.Kept

theorem recovered (kept : queue.Kept stored done) : queue.recovered = queue.persisted := by
  obtain ⟨lines, laid⟩ := kept.laid
  have inside := laid.persisted.le_length
  rw [← laid.log] at inside
  exact if_neg (Nat.not_lt.mpr inside)

theorem mono {later : List UInt8 → Nat → Prop} (kept : queue.Kept stored done)
    (grows : ∀ line start, done line start → later line start) : queue.Kept stored later where
  laid := kept.laid
  cursor := fun line start found before => grows line start (kept.cursor line start found before)
  persisted := fun line start found before =>
    grows line start (kept.persisted line start found before)

/-- A cursor in memory may move to any boundary whose lines are done. -/
theorem moved {lines : List (List UInt8)} {cursor pendingEnd : Nat}
    (kept : queue.Kept stored done) (isOpen : Bool) (laid : queue.Laid stored lines)
    (atCursor : LineBoundary lines cursor) (atEnd : LineBoundary lines pendingEnd)
    (covered : Covered stored done (queue.discarded + cursor)) :
    AlertQueue.Kept stored done { queue with isOpen, cursor, pendingEnd } :=
  ⟨⟨lines, laid.log, laid.clean, atCursor, atEnd, laid.persisted, laid.placed⟩, covered,
    kept.persisted⟩

theorem pendingEnd_le (kept : queue.Kept stored done) : queue.pendingEnd ≤ queue.log.length := by
  obtain ⟨lines, laid⟩ := kept.laid
  rw [laid.log]
  exact laid.pendingEnd.le_length

theorem covered_discarded (kept : queue.Kept stored done) :
    Covered stored done queue.discarded :=
  fun line start found before =>
    kept.cursor line start found (Nat.lt_of_lt_of_le before (Nat.le_add_right _ _))

theorem close (kept : queue.Kept stored done) : queue.close.Kept stored done := by
  obtain ⟨lines, laid⟩ := kept.laid
  exact kept.moved false laid laid.cursor laid.pendingEnd kept.cursor

theorem restart (kept : queue.Kept stored done) : queue.restart.Kept stored done := by
  obtain ⟨lines, laid⟩ := kept.laid
  exact kept.moved false laid .zero .zero kept.covered_discarded

theorem setTmp (kept : queue.Kept stored done) (cursorTmp : Option (List UInt8)) :
    AlertQueue.Kept stored done { queue with cursorTmp } := by
  obtain ⟨⟨lines, laid⟩, cursor, persisted⟩ := kept
  exact ⟨⟨lines, laid.log, laid.clean, laid.cursor, laid.pendingEnd, laid.persisted, laid.placed⟩,
    cursor, persisted⟩

/-- The queue with its cursor on file. -/
theorem saved (kept : queue.Kept stored done) :
    AlertQueue.Kept stored done
      { queue with cursorFile := some (cursorText queue.cursor), cursorTmp := none } := by
  have onFile := persisted_cursorText queue queue.cursor none
  obtain ⟨⟨lines, laid⟩, cursor, _⟩ := kept
  refine ⟨⟨lines, laid.log, laid.clean, laid.cursor, laid.pendingEnd, ?_, laid.placed⟩, cursor, ?_⟩
  · rw [onFile]
    exact laid.cursor
  · rw [onFile]
    exact cursor

/-- Every stored line starts before the end of the log. -/
theorem start_lt (kept : queue.Kept stored done) {line : List UInt8} {start : Nat}
    (found : stored line start) : start < queue.discarded + queue.log.length := by
  obtain ⟨lines, laid⟩ := kept.laid
  obtain cut | remains := Nat.lt_or_ge start queue.discarded
  · exact Nat.lt_of_lt_of_le cut (Nat.le_add_right _ _)
  · obtain ⟨index, here, rfl⟩ := laid.placed line start found remains
    obtain ⟨inside, _⟩ := List.getElem?_eq_some_iff.mp here
    rw [laid.log, ← lineOffset_length]
    exact Nat.add_lt_add_left (lineOffset_lt inside (Nat.le_refl _)) _

/-- The start of the log is on file. -/
theorem reset (kept : queue.Kept stored done) :
    AlertQueue.Kept stored done
      { queue with cursorFile := some (cursorText 0), cursorTmp := none } := by
  obtain ⟨lines, laid⟩ := kept.laid
  exact ((kept.moved queue.isOpen laid .zero laid.pendingEnd kept.covered_discarded).saved).moved
    queue.isOpen ⟨laid.log, laid.clean, .zero, laid.pendingEnd, by
      rw [persisted_cursorText]
      exact .zero, laid.placed⟩ laid.cursor laid.pendingEnd kept.cursor

/-- A log whose lines are all done may be emptied when no cursor is on file. -/
theorem truncated (kept : queue.Kept stored done) (nothing : queue.pendingEnd = 0)
    (drained : queue.log.length = queue.cursor) (unsaved : queue.persisted = 0) :
    AlertQueue.Kept stored done { queue.truncated with cursor := 0 } := by
  have covered : Covered stored done (queue.discarded + queue.log.length + 0) := by
    rw [Nat.add_zero, drained]
    exact kept.cursor
  refine ⟨⟨[], rfl, fun _ impossible => absurd impossible List.not_mem_nil, .zero, ?_, ?_, ?_⟩,
    covered, ?_⟩
  · change LineBoundary [] queue.pendingEnd
    rw [nothing]
    exact .zero
  · change LineBoundary [] queue.persisted
    rw [unsaved]
    exact .zero
  · intro line start found remains
    exact absurd (kept.start_lt found) (Nat.not_lt.mpr remains)
  · change Covered stored done (queue.discarded + queue.log.length + queue.persisted)
    rw [unsaved]
    exact covered

end AlertQueue.Kept

end Layout

section Calls

variable {stored later done : List UInt8 → Nat → Prop} {queue : AlertQueue}

/-- A fault that the process lives through. -/
def Survives : Fault → Prop
  | .crash _ => False
  | _ => True

instance : DecidablePred Survives
  | .none => isTrue trivial
  | .fail _ => isTrue trivial
  | .crash _ => isFalse id

/-- A write that is not torn: nothing or everything of it reaches the file. -/
def Whole (line : List UInt8) : Fault → Prop
  | .none => True
  | .fail progress => progress = 0 ∨ line.length ≤ progress
  | .crash progress => progress = 0 ∨ line.length ≤ progress

/-- The cursor on file when `markUploaded` comes to the compaction. -/
def AlertQueue.savedCursor (queue : AlertQueue) (env : MarkStep → Fault) : Nat :=
  if env .writeCursor = .none ∧ env .renameCursor = .none then queue.pendingEnd
  else queue.persisted

/-- `markUploaded` moves the cursor and the process outlives the save. -/
structure AlertQueue.Advances (queue : AlertQueue) (env : MarkStep → Fault) : Prop where
  ahead : queue.cursor ≤ queue.pendingEnd
  writes : Survives (env .writeCursor)
  renames : env .writeCursor = .none → Survives (env .renameCursor)

/-- `markUploaded` comes to the compaction and finds the log drained. -/
structure AlertQueue.Drains (queue : AlertQueue) (env : MarkStep → Fault) : Prop
    extends queue.Advances env where
  opened : queue.isOpen = true
  atEnd : queue.log.length = queue.pendingEnd
  positive : 0 < queue.pendingEnd
  statted : env .stat = .none

/-- A log that is emptied leaves no cursor in memory or on file that reaches into it. -/
def EmptiesSafely (persisted : Nat) (env : MarkStep → Fault) : Prop :=
  match env .truncate with
  | .none => (env .writeZero = .none ∧ env .renameZero = .none) ∨ persisted = 0
  | .fail progress => progress = 0
  | .crash progress => progress = 0 ∨ persisted = 0

theorem afterCall_kept {α : Type} {outcome : Outcome AlertQueue Empty α}
    (kept : outcome.store.Kept stored done) : (afterCall outcome).Kept stored done := by
  cases outcome with
  | returned value queue => exact kept
  | threw error queue => exact nomatch error
  | crashed queue => exact kept.restart

theorem afterCall_append_frame (rawLine : List UInt8) (fault : Fault) (queue : AlertQueue) :
    (afterCall ((AlertQueue.append rawLine fault).run queue)).discarded = queue.discarded ∧
      (afterCall ((AlertQueue.append rawLine fault).run queue)).pendingEnd ≤ queue.pendingEnd := by
  rw [AlertQueue.append, Program.run_bind, Program.run_inspect, Outcome.andThen_returned]
  cases queue.isOpen with
  | false => exact ⟨rfl, Nat.le_refl _⟩
  | true =>
      cases fault with
      | none => exact ⟨rfl, Nat.le_refl _⟩
      | fail progress => exact ⟨rfl, Nat.le_refl _⟩
      | crash progress => exact ⟨rfl, Nat.zero_le _⟩

theorem afterCall_bind_pure {α β : Type} (program : QueueProgram α) (value : β) :
    afterCall ((program >>= fun _ => pure value).run queue) = afterCall (program.run queue) := by
  rw [Program.run_bind]
  cases program.run queue with
  | returned other later => rfl
  | threw error later => exact nomatch error
  | crashed later => rfl

theorem saveCursor_cases (write rename : Fault) (queue : AlertQueue) :
    (write = .none ∧ rename = .none ∧
      (AlertQueue.saveCursor write rename).run queue = .returned true
        { queue with cursorFile := some (cursorText queue.cursor), cursorTmp := none }) ∨
    ∃ cursorTmp, ¬ (write = .none ∧ rename = .none) ∧
      ((Survives write ∧ (write = .none → Survives rename) ∧
        (AlertQueue.saveCursor write rename).run queue = .returned false { queue with cursorTmp }) ∨
      (AlertQueue.saveCursor write rename).run queue = .crashed { queue with cursorTmp }) := by
  cases write with
  | none =>
      cases rename with
      | none => exact .inl ⟨rfl, rfl, rfl⟩
      | fail progress =>
          exact .inr ⟨some (cursorText queue.cursor), by simp,
            .inl ⟨trivial, fun _ => trivial, rfl⟩⟩
      | crash progress =>
          exact .inr ⟨some (cursorText queue.cursor), by simp, .inr rfl⟩
  | fail progress =>
      exact .inr ⟨_, by simp,
        .inl ⟨trivial, by simp, rfl⟩⟩
  | crash progress => exact .inr ⟨_, by simp, .inr rfl⟩

namespace AlertQueue.Kept

theorem narrow (kept : queue.Kept stored done)
    (fewer : ∀ line start, later line start → stored line start) : queue.Kept later done where
  laid := by
    obtain ⟨lines, laid⟩ := kept.laid
    exact ⟨lines, laid.log, laid.clean, laid.cursor, laid.pendingEnd, laid.persisted,
      fun line start found => laid.placed line start (fewer line start found)⟩
  cursor := fun line start found => kept.cursor line start (fewer line start found)
  persisted := fun line start found => kept.persisted line start (fewer line start found)

/-- A whole line may be added, as a stored line or not. -/
theorem addLine {text : List UInt8} (kept : queue.Kept stored done) (clean : CleanLine text)
    (grows : ∀ line start, later line start → stored line start ∨
      line = text ∧ start = queue.discarded + queue.log.length) :
    AlertQueue.Kept later done { queue with log := queue.log ++ (text ++ [10]) } := by
  obtain ⟨lines, laid⟩ := kept.laid
  have whole : (unlines lines).length = queue.log.length := by rw [laid.log]
  have behind : ∀ offset, LineBoundary lines offset →
      Covered stored done (queue.discarded + offset) →
      Covered later done (queue.discarded + offset) := by
    intro offset boundary covered line start found before
    obtain known | ⟨_, rfl⟩ := grows line start found
    · exact covered line start known before
    · have inside := boundary.le_length
      omega
  refine ⟨⟨lines ++ [text], ?_, ?_, laid.cursor.append, laid.pendingEnd.append,
    laid.persisted.append, ?_⟩, behind _ laid.cursor kept.cursor,
    behind _ laid.persisted kept.persisted⟩
  · change queue.log ++ (text ++ [10]) = unlines (lines ++ [text])
    rw [unlines_append, laid.log, unlines_cons, unlines_nil]
  · intro line member
    obtain old | new := List.mem_append.mp member
    · exact laid.clean line old
    · rw [List.mem_singleton.mp new]
      exact clean
  · intro line start found remains
    obtain known | ⟨rfl, rfl⟩ := grows line start found
    · obtain ⟨index, here, place⟩ := laid.placed line start known remains
      obtain ⟨inside, _⟩ := List.getElem?_eq_some_iff.mp here
      refine ⟨index, ?_, ?_⟩
      · rw [List.getElem?_append_left inside, here]
      · rw [place, lineOffset_append (Nat.le_of_lt inside)]
    · refine ⟨lines.length, ?_, ?_⟩
      · rw [List.getElem?_append_right (Nat.le_refl _), Nat.sub_self, List.getElem?_cons_zero]
      · rw [lineOffset_append (Nat.le_refl _), lineOffset_length, whole]

theorem append {rawLine : List UInt8} {fault : Fault} (kept : queue.Kept stored done)
    (careful : queue.isOpen = true →
      CleanLine (textOf rawLine) ∧ Whole (AlertQueue.lineOf rawLine) fault)
    (grows : ∀ line start, later line start → stored line start ∨
      queue.isOpen = true ∧ fault = .none ∧ line = textOf rawLine ∧
        start = queue.discarded + queue.log.length) :
    ((AlertQueue.append rawLine fault).run queue).store.Kept later done := by
  rw [AlertQueue.append, Program.run_bind, Program.run_inspect, Outcome.andThen_returned]
  cases opened : queue.isOpen with
  | false =>
      refine kept.narrow fun line start found => ?_
      obtain known | ⟨impossible, _⟩ := grows line start found
      · exact known
      · rw [opened] at impossible
        exact nomatch impossible
  | true =>
      obtain ⟨clean, whole⟩ := careful opened
      have torn : ∀ progress, fault ≠ .none →
          progress = 0 ∨ (AlertQueue.lineOf rawLine).length ≤ progress →
          AlertQueue.Kept later done
            { queue with log := queue.log ++ (AlertQueue.lineOf rawLine).take progress } := by
        intro progress faulty extent
        have fewer : ∀ line start, later line start → stored line start := by
          intro line start found
          obtain known | ⟨_, sound, _⟩ := grows line start found
          · exact known
          · exact absurd sound faulty
        obtain rfl | all := extent
        · rw [List.take_zero, List.append_nil]
          exact kept.narrow fewer
        · rw [List.take_of_length_le all, lineOf_eq]
          exact kept.addLine clean fun line start found => .inl (fewer line start found)
      cases fault with
      | none =>
          change AlertQueue.Kept later done
            { queue with log := queue.log ++ AlertQueue.lineOf rawLine }
          rw [lineOf_eq]
          refine kept.addLine clean fun line start found => ?_
          obtain known | ⟨_, _, new⟩ := grows line start found
          · exact .inl known
          · exact .inr new
      | fail progress => exact torn progress (by simp) whole
      | crash progress => exact torn progress (by simp) whole

theorem «open» (kept : queue.Kept stored done) (fault : Fault) :
    ((AlertQueue.open fault).run queue).store.Kept stored done := by
  obtain ⟨lines, laid⟩ := kept.laid
  cases fault with
  | none =>
      change AlertQueue.Kept stored done { queue with isOpen := true, cursor := queue.recovered }
      rw [kept.recovered]
      exact kept.moved true laid laid.persisted laid.pendingEnd kept.persisted
  | fail progress =>
      exact kept.moved queue.isOpen laid laid.persisted laid.pendingEnd kept.persisted
  | crash progress =>
      exact kept.moved queue.isOpen laid laid.persisted laid.pendingEnd kept.persisted

/-- A read moves `pendingEnd` past exactly the lines it returns. -/
theorem pending_cases (kept : queue.Kept stored done) (max : Nat) (fault : Fault) :
    (AlertQueue.pending max fault).run queue = .returned [] queue ∨
    (AlertQueue.pending max fault).run queue = .crashed queue ∨
    ∃ batch pendingEnd, queue.isOpen = true ∧
      (AlertQueue.pending max fault).run queue = .returned batch { queue with pendingEnd } ∧
      AlertQueue.Kept stored done { queue with pendingEnd } ∧ queue.cursor ≤ pendingEnd ∧
      (∀ line ∈ batch, CleanLine line) ∧
      ∀ line start, stored line start → queue.discarded + queue.cursor ≤ start →
        start < queue.discarded + pendingEnd → line ∈ batch := by
  rw [AlertQueue.pending, Program.run_bind, Program.run_inspect, Outcome.andThen_returned]
  by_cases reads : queue.isOpen = true ∧ max ≠ 0
  · rw [if_pos reads]
    cases fault with
    | none =>
        obtain ⟨lines, laid⟩ := kept.laid
        obtain ⟨first, inside, place⟩ := laid.cursor
        have enough : (lines.drop first).length ≤ queue.log.length := by
          rw [laid.log, List.length_drop]
          exact Nat.le_trans (Nat.sub_le _ _) length_le_length_unlines
        have read := @readLines_unlines _ _ max
          (fun line member => laid.clean line (List.mem_of_mem_drop member)) enough
        have reach : queue.cursor + (unlines ((lines.drop first).take max)).length =
            lineOffset lines (first + max) := by
          rw [place, lineOffset_add]
          rfl
        obtain ⟨last, lastInside, within, atLast⟩ : ∃ index, index ≤ lines.length ∧
            index ≤ first + max ∧ lineOffset lines (first + max) = lineOffset lines index := by
          obtain fits | beyond := Nat.le_total (first + max) lines.length
          · exact ⟨first + max, fits, Nat.le_refl _, rfl⟩
          · refine ⟨lines.length, Nat.le_refl _, beyond, ?_⟩
            rw [lineOffset, List.take_of_length_le beyond, lineOffset_length]
        refine .inr (.inr ⟨(lines.drop first).take max, lineOffset lines (first + max), reads.1,
          ?_, ?_, ?_, ?_, ?_⟩)
        · rw [Program.run_step_none, place, laid.log, drop_lineOffset]
          rw [laid.log] at read
          simp only [read]
          rw [← reach, place]
        · exact kept.moved queue.isOpen laid laid.cursor ⟨last, lastInside, atLast⟩ kept.cursor
        · rw [← reach]
          exact Nat.le_add_right _ _
        · intro line member
          exact laid.clean line (List.mem_of_mem_drop (List.mem_of_mem_take member))
        · intro line start found after before
          obtain ⟨index, here, rfl⟩ := laid.placed line start found
            (Nat.le_trans (Nat.le_add_right _ _) after)
          obtain ⟨indexInside, _⟩ := List.getElem?_eq_some_iff.mp here
          have fromFirst : first ≤ index := by
            by_contra order
            have earlier := lineOffset_lt (Nat.lt_of_not_le order) inside
            omega
          have beforeLast : index < last := by
            rw [atLast] at before
            exact (lineOffset_lt_iff (Nat.le_of_lt indexInside) lastInside).mp
              (Nat.lt_of_add_lt_add_left before)
          apply List.mem_of_getElem? (i := index - first)
          rw [List.getElem?_take_of_lt (by omega), List.getElem?_drop,
            Nat.add_sub_cancel' fromFirst, here]
    | fail progress => exact .inl rfl
    | crash progress => exact .inr (.inl rfl)
  · rw [if_neg reads]
    exact .inl rfl

/-- The compaction after the cursor was saved. -/
theorem compactIfDrained {env : MarkStep → Fault} (kept : queue.Kept stored done)
    (nothing : queue.pendingEnd = 0)
    (careful : queue.isOpen = true → queue.log.length = queue.cursor → 0 < queue.cursor →
      env .stat = .none → EmptiesSafely queue.persisted env) :
    (afterCall ((AlertQueue.compactIfDrained env).run queue)).Kept stored done ∧
      (afterCall ((AlertQueue.compactIfDrained env).run queue)).pendingEnd = 0 := by
  unfold AlertQueue.compactIfDrained
  rw [Program.run_bind]
  cases statted : env .stat with
  | fail progress => exact ⟨kept, nothing⟩
  | crash progress => exact ⟨kept.restart, rfl⟩
  | none =>
      rw [Program.run_step_none, Outcome.andThen_returned]
      by_cases drained : (queue.isOpen && decide (queue.log.length = queue.cursor ∧
          0 < queue.cursor)) = true
      · rw [if_pos drained]
        obtain ⟨opened, drained⟩ := Bool.and_eq_true_iff.mp drained
        obtain ⟨atEnd, positive⟩ := of_decide_eq_true drained
        have safe := careful opened atEnd positive statted
        unfold EmptiesSafely at safe
        rw [Program.run_bind]
        cases cut : env .truncate with
        | fail progress =>
            rw [cut] at safe
            obtain rfl : progress = 0 := safe
            exact ⟨kept, nothing⟩
        | crash progress =>
            rw [cut] at safe
            obtain rfl | reset := safe
            · exact ⟨kept.restart, rfl⟩
            · refine ⟨?_, rfl⟩
              cases progress with
              | zero => exact kept.restart
              | succ progress => exact (kept.truncated nothing atEnd reset).restart
        | none =>
            rw [cut] at safe
            rw [Program.run_step_none, Outcome.andThen_returned, if_pos rfl, Program.run_bind,
              Program.run_update, Outcome.andThen_returned, Program.run_bind]
            obtain ⟨_, _, ran⟩ | ⟨cursorTmp, faulty, ⟨_, _, ran⟩ | ran⟩ :=
              saveCursor_cases (env .writeZero) (env .renameZero) { queue.truncated with cursor := 0 }
            · rw [ran]
              exact ⟨kept.reset.truncated nothing atEnd (persisted_cursorText queue 0 none),
                nothing⟩
            · rw [ran]
              have reset := safe.resolve_left faulty
              exact ⟨(kept.truncated nothing atEnd reset).setTmp cursorTmp, nothing⟩
            · rw [ran]
              have reset := safe.resolve_left faulty
              exact ⟨((kept.truncated nothing atEnd reset).setTmp cursorTmp).restart, rfl⟩
      · rw [if_neg drained]
        exact ⟨kept, nothing⟩

theorem markUploaded {env : MarkStep → Fault} (kept : queue.Kept stored done)
    (covered : queue.Advances env → Covered stored done (queue.discarded + queue.pendingEnd))
    (careful : queue.Drains env → EmptiesSafely (queue.savedCursor env) env) :
    (afterCall ((AlertQueue.markUploaded env).run queue)).Kept stored done ∧
      (afterCall ((AlertQueue.markUploaded env).run queue) = queue ∨
        (afterCall ((AlertQueue.markUploaded env).run queue)).pendingEnd = 0) := by
  unfold AlertQueue.markUploaded
  rw [Program.run_bind, Program.run_inspect, Outcome.andThen_returned]
  by_cases behind : queue.pendingEnd < queue.cursor
  · rw [if_pos (decide_eq_true behind)]
    exact ⟨kept, .inl rfl⟩
  · rw [if_neg (by simpa using behind), Program.run_bind, Program.run_update,
      Outcome.andThen_returned, Program.run_bind]
    obtain ⟨lines, laid⟩ := kept.laid
    have ahead := Nat.le_of_not_lt behind
    obtain ⟨written, renamed, ran⟩ | ⟨cursorTmp, faulty, ⟨lives, renames, ran⟩ | ran⟩ :=
      saveCursor_cases (env .writeCursor) (env .renameCursor)
        { queue with cursor := queue.pendingEnd, pendingEnd := 0 }
    · rw [ran, Outcome.andThen_returned, afterCall_bind_pure]
      have advances : queue.Advances env :=
        ⟨ahead, by rw [written]; trivial, fun _ => by rw [renamed]; trivial⟩
      have advanced := kept.moved queue.isOpen laid laid.pendingEnd .zero (covered advances)
      have compacted := advanced.saved.compactIfDrained rfl
        fun opened atEnd positive statted => by
          have safe := careful ⟨advances, opened, atEnd, positive, statted⟩
          rw [AlertQueue.savedCursor, if_pos ⟨written, renamed⟩] at safe
          rw [persisted_cursorText]
          exact safe
      exact ⟨compacted.1, .inr compacted.2⟩
    · rw [ran, Outcome.andThen_returned, afterCall_bind_pure]
      have advances : queue.Advances env := ⟨ahead, lives, renames⟩
      have advanced := kept.moved queue.isOpen laid laid.pendingEnd .zero (covered advances)
      have compacted := (advanced.setTmp cursorTmp).compactIfDrained rfl
        fun opened atEnd positive statted => by
          have safe := careful ⟨advances, opened, atEnd, positive, statted⟩
          rw [AlertQueue.savedCursor, if_neg faulty] at safe
          exact safe
      exact ⟨compacted.1, .inr compacted.2⟩
    · rw [ran]
      exact ⟨(kept.setTmp cursorTmp).restart, .inr rfl⟩

end AlertQueue.Kept

end Calls

section Delivery

abbrev QueuePast := List (Transition AlertQueue QueueEvent)

/-- A line was appended with success and starts here, counted from the first byte ever
appended. -/
def Appended (past : QueuePast) (line : List UInt8) (start : Nat) : Prop :=
  ∃ transition ∈ past, ∃ rawLine, transition.event = .append rawLine .none ∧
    transition.before.isOpen = true ∧ line = textOf rawLine ∧
    start = transition.before.discarded + transition.before.log.length

/-- A read of a log that held the line returned it. -/
def Returned (past : QueuePast) (line : List UInt8) (start : Nat) : Prop :=
  ∃ transition ∈ past, ∃ max fault batch, transition.event = .pending max fault ∧
    (AlertQueue.pending max fault).run transition.before = .returned batch transition.after ∧
    line ∈ batch ∧ transition.before.discarded + transition.before.cursor ≤ start ∧
    start < transition.after.discarded + transition.after.pendingEnd ∧
    start < transition.before.discarded + transition.before.log.length

/-- Neither the cursor in memory nor the one a new process would take from the file is past
a line that was not returned. -/
def NeverSkips (past : QueuePast) (transition : Transition AlertQueue QueueEvent) : Prop :=
  ∀ line start, Appended (past ++ [transition]) line start →
    start < transition.after.discarded + max transition.after.cursor transition.after.recovered →
    Returned (past ++ [transition]) line start

/-- Lines are appended clean and whole, and an emptied log leaves no cursor into it. -/
def CarefulCall (queue : AlertQueue) : QueueEvent → Prop
  | .append rawLine fault => queue.isOpen = true →
      CleanLine (textOf rawLine) ∧ Whole (AlertQueue.lineOf rawLine) fault
  | .markUploaded env => queue.Drains env → EmptiesSafely (queue.savedCursor env) env
  | _ => True

/-- What was read and not yet marked was returned too. -/
structure Delivered (past : QueuePast) (queue : AlertQueue) : Prop where
  kept : queue.Kept (Appended past) (Returned past)
  read : Covered (Appended past) (Returned past) (queue.discarded + queue.pendingEnd)

variable {past : QueuePast} {queue later : AlertQueue} {line : List UInt8} {start : Nat}

theorem delivered_empty : Delivered [] AlertQueue.empty where
  kept := AlertQueue.kept_empty fun _ _ ⟨_, impossible, _⟩ => List.not_mem_nil impossible
  read := fun _ _ ⟨_, impossible, _⟩ => absurd impossible List.not_mem_nil

theorem Returned.mono {last : Transition AlertQueue QueueEvent}
    (returned : Returned past line start) : Returned (past ++ [last]) line start := by
  obtain ⟨transition, member, found⟩ := returned
  exact ⟨transition, List.mem_append_left _ member, found⟩

theorem appended_last {event : QueueEvent}
    (appended : Appended (past ++ [⟨queue, event, later⟩]) line start) :
    Appended past line start ∨ ∃ rawLine, event = .append rawLine .none ∧ queue.isOpen = true ∧
      line = textOf rawLine ∧ start = queue.discarded + queue.log.length := by
  obtain ⟨transition, member, found⟩ := appended
  obtain before | here := List.mem_append.mp member
  · exact .inl ⟨transition, before, found⟩
  · obtain rfl := List.mem_singleton.mp here
    exact .inr found

/-- Every event but an append keeps what is delivered when it keeps the queue. -/
theorem delivered_of_kept {event : QueueEvent}
    (silent : ∀ rawLine fault, event ≠ .append rawLine fault)
    (kept : later.Kept (Appended past) (Returned past))
    (read : Covered (Appended past) (Returned past) (later.discarded + later.pendingEnd)) :
    Delivered (past ++ [⟨queue, event, later⟩]) later := by
  have fewer : ∀ line start, Appended (past ++ [⟨queue, event, later⟩]) line start →
      Appended past line start := by
    intro line start found
    obtain known | ⟨rawLine, appends, _⟩ := appended_last found
    · exact known
    · exact absurd appends (silent rawLine .none)
  exact ⟨(kept.narrow fewer).mono fun _ _ returned => returned.mono,
    fun line start found before => (read line start (fewer line start found) before).mono⟩

theorem Delivered.append {rawLine : List UInt8} {fault : Fault} (delivered : Delivered past queue)
    (careful : CarefulCall queue (.append rawLine fault))
    (ran : afterCall ((AlertQueue.append rawLine fault).run queue) = later) :
    Delivered (past ++ [⟨queue, .append rawLine fault, later⟩]) later := by
  have grows : ∀ line start, Appended (past ++ [⟨queue, .append rawLine fault, later⟩]) line start →
      Appended past line start ∨ queue.isOpen = true ∧ fault = .none ∧ line = textOf rawLine ∧
        start = queue.discarded + queue.log.length := by
    intro line start found
    obtain known | ⟨raw, same, opened, text, place⟩ := appended_last found
    · exact .inl known
    · obtain ⟨rfl, rfl⟩ := QueueEvent.append.inj same
      exact .inr ⟨opened, rfl, text, place⟩
  have kept := afterCall_kept (delivered.kept.append careful grows)
  rw [ran] at kept
  refine ⟨kept.mono fun _ _ returned => returned.mono, fun line start found before => ?_⟩
  obtain ⟨sameDiscarded, reach⟩ := afterCall_append_frame rawLine fault queue
  rw [ran] at sameDiscarded reach
  rw [sameDiscarded] at before
  have inside := delivered.kept.pendingEnd_le
  obtain known | ⟨_, _, _, rfl⟩ := grows line start found
  · exact (delivered.read line start known (by omega)).mono
  · omega

theorem Delivered.pending {max : Nat} {fault : Fault} (delivered : Delivered past queue)
    (ran : afterCall ((AlertQueue.pending max fault).run queue) = later) :
    Delivered (past ++ [⟨queue, .pending max fault, later⟩]) later := by
  obtain same | same | ⟨batch, pendingEnd, _, same, kept, _, _, window⟩ :=
    delivered.kept.pending_cases max fault
  · rw [same] at ran
    obtain rfl : queue = later := ran
    exact delivered_of_kept (fun _ _ => by simp) delivered.kept delivered.read
  · rw [same] at ran
    obtain rfl : queue.restart = later := ran
    exact delivered_of_kept (fun _ _ => by simp) delivered.kept.restart
      delivered.kept.covered_discarded
  · have inside := kept.pendingEnd_le
    have appends : ∀ line start,
        Appended (past ++ [⟨queue, .pending max fault, later⟩]) line start →
        Appended past line start := by
      intro line start found
      obtain known | ⟨rawLine, impossible, _⟩ := appended_last found
      · exact known
      · exact nomatch impossible
    have ended : (AlertQueue.pending max fault).run queue = .returned batch later := by
      rw [same] at ran ⊢
      rw [← ran]
      rfl
    rw [same] at ran
    obtain rfl : { queue with pendingEnd } = later := ran
    refine ⟨(kept.narrow appends).mono fun _ _ returned => returned.mono,
      fun line start found before => ?_⟩
    obtain passed | ahead := Nat.lt_or_ge start (queue.discarded + queue.cursor)
    · exact (delivered.kept.cursor line start (appends line start found) passed).mono
    · exact ⟨_, List.mem_append_right _ List.mem_cons_self, max, fault, batch, rfl, ended,
        window line start (appends line start found) ahead before, ahead, before,
        Nat.lt_of_lt_of_le before (Nat.add_le_add_left inside _)⟩

theorem Delivered.step {event : QueueEvent} (delivered : Delivered past queue)
    (careful : CarefulCall queue event) (stepped : queueStep queue event = some later) :
    Delivered (past ++ [⟨queue, event, later⟩]) later := by
  cases event with
  | «open» fault =>
      rw [queueStep] at stepped
      split at stepped
      next => exact nomatch stepped
      next closed =>
        obtain rfl := Option.some.inj stepped
        refine delivered_of_kept (fun _ _ => by simp) (afterCall_kept (delivered.kept.open fault)) ?_
        cases fault with
        | none => exact delivered.read
        | fail progress => exact delivered.read
        | crash progress => exact delivered.kept.covered_discarded
  | append rawLine fault => exact delivered.append careful (Option.some.inj stepped)
  | pending max fault => exact delivered.pending (Option.some.inj stepped)
  | markUploaded env =>
      obtain rfl := Option.some.inj stepped
      obtain ⟨kept, same | none⟩ := delivered.kept.markUploaded (fun _ => delivered.read) careful
      · rw [same] at kept ⊢
        exact delivered_of_kept (fun _ _ => by simp) delivered.kept delivered.read
      · refine delivered_of_kept (fun _ _ => by simp) kept ?_
        rw [none]
        exact kept.covered_discarded
  | close =>
      obtain rfl := Option.some.inj stepped
      exact delivered_of_kept (fun _ _ => by simp) delivered.kept.close delivered.read
  | crash =>
      obtain rfl := Option.some.inj stepped
      exact delivered_of_kept (fun _ _ => by simp) delivered.kept.restart
        delivered.kept.covered_discarded

theorem Delivered.neverSkips {event : QueueEvent}
    (delivered : Delivered (past ++ [⟨queue, event, later⟩]) later) :
    NeverSkips past ⟨queue, event, later⟩ := by
  intro line start appended passed
  rw [delivered.kept.recovered] at passed
  obtain first | second := Nat.le_total later.cursor later.persisted
  · rw [Nat.max_eq_right first] at passed
    exact delivered.kept.persisted line start appended passed
  · rw [Nat.max_eq_left second] at passed
    exact delivered.kept.cursor line start appended passed

theorem queue_neverSkips_of_careful {transitions : QueuePast} {last : AlertQueue}
    (run : Execution queueStep AlertQueue.empty transitions last)
    (careful : ∀ transition ∈ transitions, CarefulCall transition.before transition.event) :
    ∀ past transition rest, transitions = past ++ transition :: rest →
      NeverSkips past transition :=
  run.forall_history (fun delivered careful stepped => delivered.step careful stepped)
    (fun delivered careful stepped => (delivered.step careful stepped).neverSkips)
    delivered_empty careful

/-! A stale cursor. -/

def soundMark : MarkStep → Fault := fun _ => .none

def deliveringRun : List QueueEvent :=
  [.open .none, .append [97] .none, .pending 64 .none, .markUploaded soundMark, .crash,
    .open .none, .append [98] .none]

theorem queue_neverSkips_sample :
    ∃ transitions last,
      execute queueStep AlertQueue.empty deliveringRun = some (transitions, last) ∧
      last.log = [98, 10] ∧ last.recovered = 0 ∧
      ∀ past transition rest, transitions = past ++ transition :: rest →
        NeverSkips past transition := by
  refine ⟨_, _, rfl, rfl, rfl, queue_neverSkips_of_careful
    (execution_of_execute (show execute _ _ deliveringRun = _ from rfl)) ?_⟩
  simp only [List.forall_mem_cons]
  exact ⟨trivial, fun _ => ⟨by decide, trivial⟩, trivial, fun _ => .inl ⟨rfl, rfl⟩, trivial, trivial,
    fun _ => ⟨by decide, trivial⟩, fun _ none => nomatch none⟩

/-- The process dies between emptying the log and writing the zero cursor. -/
def dyingMark : MarkStep → Fault
  | .writeZero => .crash 0
  | _ => .none

def staleRun : List QueueEvent :=
  [.open .none, .append [97] .none, .pending 64 .none, .markUploaded dyingMark,
    .open .none, .append [98] .none, .crash,
    .open .none, .append [99] .none, .pending 64 .none, .markUploaded soundMark]

theorem exists_skip {transitions : QueuePast} (nonempty : transitions ≠ [])
    (appended : Appended transitions line start) (unreturned : ¬ Returned transitions line start)
    (passed : start < (transitions.getLast nonempty).after.discarded) :
    ∃ past transition rest, transitions = past ++ transition :: rest ∧
      ¬ NeverSkips past transition := by
  have split := List.dropLast_append_getLast nonempty
  refine ⟨_, _, [], split.symm, fun never => unreturned ?_⟩
  rw [← split] at appended ⊢
  exact never line start appended (Nat.lt_of_lt_of_le passed (Nat.le_add_right _ _))

/-- The next line takes the place the old cursor points behind, and is never sent. -/
theorem queue_skips_behind_stale_cursor :
    ∃ transitions last, Execution queueStep AlertQueue.empty transitions last ∧ last.log = [] ∧
      ∃ past transition rest, transitions = past ++ transition :: rest ∧
        ¬ NeverSkips past transition := by
  refine ⟨_, _, execution_of_execute (show execute _ _ staleRun = _ from rfl), rfl,
    @exists_skip [98] 2 _ (List.cons_ne_nil _ _) ?_ ?_ (by decide)⟩
  · exact ⟨_, .tail _ (.tail _ (.tail _ (.tail _ (.tail _ (.head _))))), [98], rfl, rfl, rfl, rfl⟩
  · rintro ⟨transition, member, max, fault, batch, event, ran, listed, _⟩
    simp only [List.mem_cons, List.not_mem_nil, or_false] at member
    obtain rfl | rfl | rfl | rfl | rfl | rfl | rfl | rfl | rfl | rfl | rfl := member <;> cases event
    · cases ran
      exact absurd listed (by decide)
    · cases ran
      exact absurd listed (by decide)

end Delivery

end Idsm.Managerd
