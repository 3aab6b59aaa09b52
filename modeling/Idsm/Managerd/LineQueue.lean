import Idsm.Managerd.AlertQueueProperties

/-! The alert queue over whole lines: cursors count lines instead of bytes, and a torn line
is an entry of its own. The queue of files does the same as long as nothing is appended
behind a torn line, no line that is read holds a zero byte, and no stale cursor stays. -/

set_option autoImplicit false

namespace Idsm.Managerd

open Idsm.Foundation

structure LineQueue where
  lines : List (List UInt8)
  isOpen : Bool
  next : Nat
  batchEnd : Nat
  saved : Nat
  deriving DecidableEq, Repr

/-- The process dies while it saves the cursor. -/
def Dies : Fault → Fault → Prop
  | .crash _, _ => True
  | .none, .crash _ => True
  | _, _ => False

instance (write rename : Fault) : Decidable (Dies write rename) := by
  cases write with
  | none => cases rename <;> unfold Dies <;> infer_instance
  | fail progress => cases rename <;> unfold Dies <;> infer_instance
  | crash progress => exact isTrue trivial

namespace LineQueue

def empty : LineQueue := ⟨[], false, 0, 0, 0⟩

def restart (queue : LineQueue) : LineQueue :=
  { queue with isOpen := false, next := 0, batchEnd := 0 }

def add (queue : LineQueue) (line : List UInt8) : LineQueue :=
  if line = [] then queue else { queue with lines := queue.lines ++ [line] }

def «open» (queue : LineQueue) : Fault → LineQueue
  | .none => { queue with isOpen := true, next := queue.saved }
  | .fail _ => { queue with next := queue.saved }
  | .crash _ => queue.restart

/-- What is left of a line whose append was cut off is a line too. -/
def append (queue : LineQueue) (rawLine : List UInt8) (fault : Fault) : LineQueue :=
  if queue.isOpen then
    match fault with
    | .none => queue.add (textOf rawLine)
    | .fail progress => queue.add ((textOf rawLine).take progress)
    | .crash progress => (queue.add ((textOf rawLine).take progress)).restart
  else queue

/-- The lines that a read returns. -/
def read (queue : LineQueue) (max : Nat) : List (List UInt8) :=
  if queue.isOpen then (queue.lines.drop queue.next).take max else []

def pending (queue : LineQueue) (max : Nat) (fault : Fault) : LineQueue :=
  if queue.isOpen ∧ max ≠ 0 then
    match fault with
    | .none => { queue with batchEnd := min (queue.next + max) queue.lines.length }
    | .fail _ => queue
    | .crash _ => queue.restart
  else queue

def emptied (queue : LineQueue) : LineQueue := { queue with lines := [], next := 0, saved := 0 }

def compact (queue : LineQueue) (env : MarkStep → Fault) : LineQueue :=
  match env .stat with
  | .crash _ => queue.restart
  | .fail _ => queue
  | .none =>
      if queue.isOpen ∧ queue.next = queue.lines.length ∧ 0 < queue.next then
        match env .truncate with
        | .fail _ => queue
        | .crash progress => if progress = 0 then queue.restart else queue.emptied.restart
        | .none =>
            if Dies (env .writeZero) (env .renameZero) then queue.emptied.restart else queue.emptied
      else queue

def markUploaded (queue : LineQueue) (env : MarkStep → Fault) : LineQueue :=
  if queue.batchEnd < queue.next then queue
  else if Dies (env .writeCursor) (env .renameCursor) then queue.restart
  else
    let saved :=
      if env .writeCursor = .none ∧ env .renameCursor = .none then queue.batchEnd else queue.saved
    compact { queue with next := queue.batchEnd, batchEnd := 0, saved } env

def step (queue : LineQueue) : QueueEvent → LineQueue
  | .open fault => queue.open fault
  | .append rawLine fault => queue.append rawLine fault
  | .pending max fault => queue.pending max fault
  | .markUploaded env => queue.markUploaded env
  | .close => { queue with isOpen := false }
  | .crash => queue.restart

/-- The lines after these calls. -/
def after (past : QueuePast) : LineQueue :=
  past.foldl (fun queue transition => queue.step transition.event) empty

theorem after_concat (past : QueuePast) (queue later : AlertQueue) (event : QueueEvent) :
    after (past ++ [⟨queue, event, later⟩]) = (after past).step event := by
  rw [after, List.foldl_append]
  rfl

end LineQueue

section Reading

variable {line log : List UInt8} {lines : List (List UInt8)} {fuel max : Nat}

theorem getline_torn (nonempty : line ≠ []) (oneLine : 10 ∉ line) :
    getline line = some (line, []) := by
  have inside : line.dropWhile (fun byte => decide (byte ≠ 10)) = [] :=
    List.dropWhile_eq_nil_iff.mpr fun byte member =>
      decide_eq_true fun same => oneLine (same ▸ member)
  obtain ⟨first, others, rfl⟩ := List.exists_cons_of_ne_nil nonempty
  rw [getline.eq_def]
  simp only [inside]

theorem readLines_nil (fuel max : Nat) : readLines fuel max [] = ([], 0) := by
  cases fuel with
  | zero => rfl
  | succ fuel =>
      cases max with
      | zero => rfl
      | succ max => rfl

/-- A read returns the lines a log holds, a torn one as a line of its own. -/
theorem readLines_holds (holds : Holds lines log) (clean : ∀ line ∈ lines.take max, 0 ∉ line)
    (enough : lines.length ≤ fuel) :
    readLines fuel max log = (lines.take max, offsetIn lines log max) := by
  induction holds generalizing fuel max with
  | nil => rw [readLines_nil, List.take_nil, offsetIn_nil]
  | @torn line nonempty oneLine =>
      obtain ⟨fuel, rfl⟩ := Nat.exists_eq_succ_of_ne_zero (Nat.ne_of_gt enough)
      cases max with
      | zero =>
          rw [offsetIn_zero]
          rfl
      | succ max =>
          have zeroFree : 0 ∉ line := clean line List.mem_cons_self
          have text : line.takeWhile (fun byte => decide (byte ≠ 0)) = line :=
            List.takeWhile_eq_self_iff.mpr fun byte member =>
              decide_eq_true fun same => zeroFree (same ▸ member)
          have noNewline : line.getLast? ≠ some 10 :=
            fun last => oneLine (List.mem_of_getLast? last)
          rw [Nat.succ_eq_add_one, readLines, getline_torn nonempty oneLine]
          simp only [text, if_neg noNewline, if_neg nonempty, readLines_nil, Nat.add_zero]
          rw [offsetIn_torn, List.take_succ_cons, List.take_nil]
  | @cons line lines rest nonempty oneLine later ih =>
      obtain ⟨fuel, rfl⟩ := Nat.exists_eq_succ_of_ne_zero
        (Nat.ne_of_gt (Nat.lt_of_lt_of_le (Nat.succ_pos lines.length) enough))
      cases max with
      | zero =>
          rw [offsetIn_zero]
          rfl
      | succ max =>
          rw [List.take_succ_cons] at clean ⊢
          obtain ⟨zeroFree, others⟩ := List.forall_mem_cons.mp clean
          have here : CleanLine line := ⟨nonempty, zeroFree, oneLine⟩
          have behind := ih others (Nat.le_of_succ_le_succ enough)
          rw [Nat.succ_eq_add_one, readLines, getline_line here]
          simp only [lineText_line here, List.getLast?_append, List.getLast?_singleton,
            Option.some_or, if_true, List.dropLast_concat, nonempty, if_false, behind]
          rw [offsetIn_cons, List.length_append, List.length_singleton]

end Reading

/-- The queue of files stands where the queue of lines does. -/
structure Refines (queue : AlertQueue) (model : LineQueue) : Prop where
  holds : Holds model.lines queue.log
  isOpen : queue.isOpen = model.isOpen
  next : model.next ≤ model.lines.length
  batchEnd : model.batchEnd ≤ model.lines.length
  saved : model.saved ≤ model.lines.length
  atNext : queue.cursor = offsetIn model.lines queue.log model.next
  atBatchEnd : queue.pendingEnd = offsetIn model.lines queue.log model.batchEnd
  atSaved : queue.persisted = offsetIn model.lines queue.log model.saved

/-- Some of what is appended reaches the file. -/
def Writes : Fault → Prop
  | .none => True
  | .fail progress => progress ≠ 0
  | .crash progress => progress ≠ 0

/-- What is appended is a line, with or without its newline. -/
def OneLine : QueueEvent → Prop
  | .append rawLine _ => textOf rawLine ≠ [] ∧ 10 ∉ textOf rawLine
  | _ => True

instance : DecidablePred OneLine
  | .append rawLine _ => inferInstanceAs (Decidable (textOf rawLine ≠ [] ∧ 10 ∉ textOf rawLine))
  | .open _ => isTrue trivial
  | .pending _ _ => isTrue trivial
  | .markUploaded _ => isTrue trivial
  | .close => isTrue trivial
  | .crash => isTrue trivial

/-- Whatever is appended stands behind a newline; what is read holds no zero byte; an emptied log
leaves no cursor into it. -/
def LineCareful (queue : AlertQueue) (model : LineQueue) : QueueEvent → Prop
  | .append _ fault =>
      queue.isOpen = true → Writes fault → queue.log = [] ∨ queue.log.getLast? = some 10
  | .pending max fault => fault = .none → ∀ line ∈ model.read max, 0 ∉ line
  | .markUploaded env => queue.Drains env → EmptiesSafely (queue.savedCursor env) env
  | _ => True

namespace Refines

variable {queue : AlertQueue} {model : LineQueue}

theorem empty : Refines AlertQueue.empty LineQueue.empty where
  holds := .nil
  isOpen := rfl
  next := Nat.le_refl 0
  batchEnd := Nat.le_refl 0
  saved := Nat.le_refl 0
  atNext := rfl
  atBatchEnd := rfl
  atSaved := rfl

theorem restart (refines : Refines queue model) : Refines queue.restart model.restart where
  holds := refines.holds
  isOpen := rfl
  next := Nat.zero_le _
  batchEnd := Nat.zero_le _
  saved := refines.saved
  atNext := offsetIn_zero.symm
  atBatchEnd := offsetIn_zero.symm
  atSaved := refines.atSaved

theorem close (refines : Refines queue model) :
    Refines queue.close { model with isOpen := false } :=
  { refines with isOpen := rfl }

theorem recovered (refines : Refines queue model) : queue.recovered = queue.persisted := by
  apply if_neg
  rw [refines.atSaved]
  exact Nat.not_lt.mpr offsetIn_le

theorem setTmp (refines : Refines queue model) (cursorTmp : Option (List UInt8)) :
    Refines { queue with cursorTmp } model := { refines with }

theorem «open» (refines : Refines queue model) (fault : Fault) :
    Refines (afterCall ((AlertQueue.open fault).run queue)) (model.open fault) := by
  cases fault with
  | none =>
      refine { refines with isOpen := rfl, next := refines.saved, atNext := ?_ }
      exact refines.recovered.trans refines.atSaved
  | fail progress => exact { refines with next := refines.saved, atNext := refines.atSaved }
  | crash progress => exact refines.restart

/-- A line or a part of one behind a newline is an entry of its own. -/
theorem add {added line : List UInt8} (refines : Refines queue model)
    (ended : queue.log = [] ∨ queue.log.getLast? = some 10) (oneLine : 10 ∉ line)
    (nonempty : line ≠ []) (written : added = line ∨ added = line ++ [10]) :
    Refines { queue with log := queue.log ++ added } (model.add line) := by
  have whole := refines.holds.whole ended
  have kept : ∀ index, index ≤ model.lines.length →
      offsetIn (model.lines ++ [line]) (queue.log ++ added) index =
        offsetIn model.lines queue.log index := by
    intro index inside
    have short : lineOffset model.lines index ≤ queue.log.length := by
      rw [whole]
      exact lineOffset_le_length
    rw [offsetIn, offsetIn, lineOffset_append inside, List.length_append, Nat.min_eq_left short,
      Nat.min_eq_left (Nat.le_add_right_of_le short)]
  have longer : ∀ index, index ≤ model.lines.length → index ≤ (model.lines ++ [line]).length := by
    intro index inside
    rw [List.length_append]
    exact Nat.le_add_right_of_le inside
  have entry : Holds (model.lines ++ [line]) (queue.log ++ added) := by
    have last : Holds [line] added := by
      obtain rfl | rfl := written
      · exact .torn nonempty oneLine
      · exact .cons nonempty oneLine .nil
    exact refines.holds.append whole last
  rw [LineQueue.add, if_neg nonempty]
  exact ⟨entry, refines.isOpen, longer _ refines.next, longer _ refines.batchEnd,
    longer _ refines.saved, refines.atNext.trans (kept _ refines.next).symm,
    refines.atBatchEnd.trans (kept _ refines.batchEnd).symm,
    refines.atSaved.trans (kept _ refines.saved).symm⟩

theorem append {rawLine : List UInt8} {fault : Fault} (refines : Refines queue model)
    (oneLine : textOf rawLine ≠ [] ∧ 10 ∉ textOf rawLine)
    (careful : queue.isOpen = true → Writes fault →
      queue.log = [] ∨ queue.log.getLast? = some 10) :
    Refines (afterCall ((AlertQueue.append rawLine fault).run queue))
      (model.append rawLine fault) := by
  obtain ⟨nonempty, oneLine⟩ := oneLine
  have cut : ∀ progress,
      (progress ≠ 0 → queue.log = [] ∨ queue.log.getLast? = some 10) →
      Refines { queue with log := queue.log ++ (AlertQueue.lineOf rawLine).take progress }
        (model.add ((textOf rawLine).take progress)) := by
    intro progress ended
    rw [lineOf_eq]
    cases progress with
    | zero =>
        rw [List.take_zero, List.take_zero, List.append_nil]
        exact refines
    | succ progress =>
        refine refines.add (ended (Nat.succ_ne_zero _))
          (fun member => oneLine (List.mem_of_mem_take member)) ?_ ?_
        · intro none
          obtain impossible | empty := List.take_eq_nil_iff.mp none
          · exact nomatch impossible
          · exact nonempty empty
        · obtain short | long := Nat.lt_or_ge progress (textOf rawLine).length
          · exact .inl (List.take_append_of_le_length short)
          · right
            rw [List.take_of_length_le (Nat.le_succ_of_le long), List.take_of_length_le]
            rw [List.length_append]
            exact Nat.succ_le_succ long
  rw [AlertQueue.append, Program.run_bind, Program.run_inspect, Outcome.andThen_returned,
    LineQueue.append.eq_def, ← refines.isOpen]
  cases opened : queue.isOpen with
  | false => exact refines
  | true =>
      have ended := careful opened
      cases fault with
      | none => exact refines.add (ended trivial) oneLine nonempty (.inr (lineOf_eq rawLine))
      | fail progress => exact cut progress ended
      | crash progress => exact (cut progress ended).restart

/-- What a read returns, and where the batch ends. -/
theorem pending_run (refines : Refines queue model) {max : Nat} (opened : model.isOpen = true)
    (asked : max ≠ 0) (clean : ∀ line ∈ model.read max, 0 ∉ line) :
    (AlertQueue.pending max .none).run queue =
      .returned (model.read max)
        { queue with pendingEnd := offsetIn model.lines queue.log (model.next + max) } := by
  have here : queue.isOpen = true := refines.isOpen.trans opened
  have enough : (model.lines.drop model.next).length ≤ queue.log.length := by
    refine Nat.le_trans ?_ refines.holds.length_le
    rw [List.length_drop]
    exact Nat.sub_le _ _
  rw [LineQueue.read, if_pos opened] at clean ⊢
  have lines := readLines_holds (refines.holds.drop model.next) clean enough
  rw [AlertQueue.pending, Program.run_bind, Program.run_inspect, Outcome.andThen_returned,
    if_pos ⟨here, asked⟩, Program.run_step_none, refines.atNext]
  simp only [lines]
  rw [← refines.holds.offsetIn_add]

theorem pending_idle {max : Nat} {fault : Fault}
    (idle : ¬ (queue.isOpen = true ∧ max ≠ 0)) :
    (AlertQueue.pending max fault).run queue = .returned [] queue := by
  rw [AlertQueue.pending, Program.run_bind, Program.run_inspect, Outcome.andThen_returned,
    if_neg idle]
  rfl

theorem pending (refines : Refines queue model) {max : Nat} {fault : Fault}
    (clean : fault = .none → ∀ line ∈ model.read max, 0 ∉ line) :
    Refines (afterCall ((AlertQueue.pending max fault).run queue)) (model.pending max fault) := by
  rw [LineQueue.pending.eq_def]
  by_cases reads : model.isOpen = true ∧ max ≠ 0
  · rw [if_pos reads]
    have here : queue.isOpen = true ∧ max ≠ 0 := ⟨refines.isOpen.trans reads.1, reads.2⟩
    cases fault with
    | none =>
        rw [refines.pending_run reads.1 reads.2 (clean rfl)]
        exact { refines with
          batchEnd := Nat.min_le_right _ _
          atBatchEnd := (offsetIn_min _ _ _).symm }
    | fail progress =>
        rw [AlertQueue.pending, Program.run_bind, Program.run_inspect, Outcome.andThen_returned,
          if_pos here]
        exact refines
    | crash progress =>
        rw [AlertQueue.pending, Program.run_bind, Program.run_inspect, Outcome.andThen_returned,
          if_pos here]
        exact refines.restart
  · rw [if_neg reads, pending_idle fun here => reads ⟨refines.isOpen.symm.trans here.1, here.2⟩]
    exact refines

theorem saveCursor_ends (write rename : Fault) (queue : AlertQueue) : ∃ cursorTmp,
    (Dies write rename ∧
      (AlertQueue.saveCursor write rename).run queue = .crashed { queue with cursorTmp }) ∨
    (¬ Dies write rename ∧ ¬ (write = .none ∧ rename = .none) ∧
      (AlertQueue.saveCursor write rename).run queue = .returned false { queue with cursorTmp }) ∨
    (write = .none ∧ rename = .none ∧ (AlertQueue.saveCursor write rename).run queue =
      .returned true
        { queue with cursorFile := some (cursorText queue.cursor), cursorTmp := none }) := by
  cases write with
  | none =>
      cases rename with
      | none => exact ⟨none, .inr (.inr ⟨rfl, rfl, rfl⟩)⟩
      | fail progress => exact ⟨_, .inr (.inl ⟨id, by simp, rfl⟩)⟩
      | crash progress => exact ⟨_, .inl ⟨trivial, rfl⟩⟩
  | fail progress => exact ⟨_, .inr (.inl ⟨id, by simp, rfl⟩)⟩
  | crash progress => exact ⟨_, .inl ⟨trivial, rfl⟩⟩

theorem advances_of_lives {env : MarkStep → Fault} (ahead : queue.cursor ≤ queue.pendingEnd)
    (lives : ¬ Dies (env .writeCursor) (env .renameCursor)) : queue.Advances env := by
  refine ⟨ahead, ?_, fun written => ?_⟩
  · cases write : env .writeCursor with
    | none => trivial
    | fail progress => trivial
    | crash progress =>
        rw [write] at lives
        exact lives trivial
  · cases rename : env .renameCursor with
    | none => trivial
    | fail progress => trivial
    | crash progress =>
        rw [written, rename] at lives
        exact lives trivial

theorem saved_cursor (refines : Refines queue model) :
    Refines { queue with cursorFile := some (cursorText queue.cursor), cursorTmp := none }
      { model with saved := model.next } :=
  { refines with
    saved := refines.next
    atSaved := (persisted_cursorText queue queue.cursor none).trans refines.atNext }

/-- The lines are all taken: the log may be emptied once no cursor is on file. -/
theorem emptied (refines : Refines queue model) (nothing : model.batchEnd = 0)
    (unsaved : queue.persisted = 0) :
    Refines { queue.truncated with cursor := 0 } model.emptied where
  holds := .nil
  isOpen := refines.isOpen
  next := Nat.le_refl 0
  batchEnd := Nat.le_of_eq nothing
  saved := Nat.le_refl 0
  atNext := rfl
  atBatchEnd := by
    have start := refines.atBatchEnd
    rw [nothing, offsetIn_zero] at start
    exact start.trans offsetIn_nil.symm
  atSaved := unsaved.trans offsetIn_nil.symm

theorem drained_iff (refines : Refines queue model) :
    (queue.isOpen && decide (queue.log.length = queue.cursor ∧ 0 < queue.cursor)) = true ↔
      model.isOpen ∧ model.next = model.lines.length ∧ 0 < model.next := by
  have start := refines.holds.offsetIn_lt_iff (Nat.zero_le model.lines.length) refines.next
  have last := refines.holds.offsetIn_lt_iff refines.next (Nat.le_refl _)
  rw [offsetIn_zero, ← refines.atNext] at start
  rw [refines.holds.offsetIn_length, ← refines.atNext] at last
  have inside : queue.cursor ≤ queue.log.length := refines.atNext ▸ offsetIn_le
  have index := refines.next
  rw [Bool.and_eq_true_iff, decide_eq_true_iff, refines.isOpen]
  apply and_congr Iff.rfl
  omega

theorem compact {env : MarkStep → Fault} (refines : Refines queue model)
    (nothing : model.batchEnd = 0)
    (careful : queue.isOpen = true → queue.log.length = queue.cursor → 0 < queue.cursor →
      env .stat = .none → EmptiesSafely queue.persisted env) :
    Refines (afterCall ((AlertQueue.compactIfDrained env).run queue)) (model.compact env) := by
  unfold AlertQueue.compactIfDrained
  rw [Program.run_bind, LineQueue.compact.eq_def]
  cases statted : env .stat with
  | fail progress => exact refines
  | crash progress => exact refines.restart
  | none =>
      rw [Program.run_step_none, Outcome.andThen_returned]
      by_cases drained : (queue.isOpen && decide (queue.log.length = queue.cursor ∧
          0 < queue.cursor)) = true
      · simp only [if_pos drained, if_pos (refines.drained_iff.1 drained)]
        obtain ⟨opened, place⟩ := Bool.and_eq_true_iff.mp drained
        obtain ⟨atEnd, positive⟩ := of_decide_eq_true place
        have safe := careful opened atEnd positive statted
        unfold EmptiesSafely at safe
        rw [Program.run_bind]
        cases cut : env .truncate with
        | fail progress =>
            rw [cut] at safe
            obtain rfl : progress = 0 := safe
            exact refines
        | crash progress =>
            rw [cut] at safe
            cases progress with
            | zero => exact refines.restart
            | succ progress =>
                exact (refines.emptied nothing (safe.resolve_left (Nat.succ_ne_zero _))).restart
        | none =>
            rw [cut] at safe
            rw [Program.run_step_none, Outcome.andThen_returned, if_pos rfl, Program.run_bind,
              Program.run_update, Outcome.andThen_returned, Program.run_bind]
            obtain ⟨cursorTmp, ⟨dies, ran⟩ | ⟨lives, faulty, ran⟩ | ⟨written, renamed, ran⟩⟩ :=
              saveCursor_ends (env .writeZero) (env .renameZero) { queue.truncated with cursor := 0 }
            · have faulty : ¬ (env .writeZero = .none ∧ env .renameZero = .none) := by
                intro both
                rw [both.1, both.2] at dies
                exact dies
              simp only [if_pos dies, ran, Outcome.andThen_crashed]
              exact ((refines.emptied nothing (safe.resolve_left faulty)).setTmp cursorTmp).restart
            · simp only [if_neg lives, ran, Outcome.andThen_returned]
              exact (refines.emptied nothing (safe.resolve_left faulty)).setTmp cursorTmp
            · have lives : ¬ Dies (env .writeZero) (env .renameZero) := by
                rw [written, renamed]
                exact id
              simp only [if_neg lives, ran, Outcome.andThen_returned]
              have reset : AlertQueue.persisted { queue.truncated with
                  cursor := 0, cursorFile := some (cursorText 0), cursorTmp := none } = 0 :=
                persisted_cursorText { queue.truncated with cursor := 0 } 0 none
              have placed : Refines { queue with
                  cursorFile := some (cursorText 0), cursorTmp := none }
                  { model with saved := 0 } :=
                { refines with
                  saved := Nat.zero_le _
                  atSaved := (persisted_cursorText queue 0 none).trans offsetIn_zero.symm }
              exact placed.emptied nothing reset
      · simp only [if_neg drained, if_neg fun model => drained (refines.drained_iff.2 model)]
        exact refines

theorem markUploaded {env : MarkStep → Fault} (refines : Refines queue model)
    (careful : queue.Drains env → EmptiesSafely (queue.savedCursor env) env) :
    Refines (afterCall ((AlertQueue.markUploaded env).run queue)) (model.markUploaded env) := by
  have order : queue.pendingEnd < queue.cursor ↔ model.batchEnd < model.next := by
    rw [refines.atBatchEnd, refines.atNext]
    exact refines.holds.offsetIn_lt_iff refines.batchEnd refines.next
  unfold AlertQueue.markUploaded LineQueue.markUploaded
  rw [Program.run_bind, Program.run_inspect, Outcome.andThen_returned]
  by_cases behind : queue.pendingEnd < queue.cursor
  · rw [if_pos (decide_eq_true behind), if_pos (order.1 behind)]
    exact refines
  · rw [if_neg (by simpa using behind), if_neg fun model => behind (order.2 model),
      Program.run_bind, Program.run_update, Outcome.andThen_returned, Program.run_bind]
    have ahead := Nat.le_of_not_lt behind
    have moved : Refines { queue with cursor := queue.pendingEnd, pendingEnd := 0 }
        { model with next := model.batchEnd, batchEnd := 0 } :=
      { refines with
        next := refines.batchEnd
        batchEnd := Nat.zero_le _
        atNext := refines.atBatchEnd
        atBatchEnd := offsetIn_zero.symm }
    obtain ⟨cursorTmp, ⟨dies, ran⟩ | ⟨lives, faulty, ran⟩ | ⟨written, renamed, ran⟩⟩ :=
      saveCursor_ends (env .writeCursor) (env .renameCursor)
        { queue with cursor := queue.pendingEnd, pendingEnd := 0 }
    · rw [ran, if_pos dies]
      exact (moved.setTmp cursorTmp).restart
    · rw [ran, if_neg lives, if_neg faulty, Outcome.andThen_returned, afterCall_bind_pure]
      refine (moved.setTmp cursorTmp).compact rfl fun opened atEnd positive statted => ?_
      have safe := careful ⟨advances_of_lives ahead lives, opened, atEnd, positive, statted⟩
      rw [AlertQueue.savedCursor, if_neg faulty] at safe
      exact safe
    · have lives : ¬ Dies (env .writeCursor) (env .renameCursor) := by
        rw [written, renamed]
        exact id
      rw [ran, if_neg lives, if_pos ⟨written, renamed⟩, Outcome.andThen_returned,
        afterCall_bind_pure]
      refine moved.saved_cursor.compact rfl fun opened atEnd positive statted => ?_
      have safe := careful ⟨advances_of_lives ahead lives, opened, atEnd, positive, statted⟩
      rw [AlertQueue.savedCursor, if_pos ⟨written, renamed⟩] at safe
      rw [persisted_cursorText]
      exact safe

theorem step {event : QueueEvent} {later : AlertQueue} (refines : Refines queue model)
    (oneLine : OneLine event) (careful : LineCareful queue model event)
    (stepped : queueStep queue event = some later) : Refines later (model.step event) := by
  cases event with
  | «open» fault =>
      rw [queueStep] at stepped
      split at stepped
      next => cases stepped
      next closed =>
        obtain rfl := Option.some.inj stepped
        exact refines.open fault
  | append rawLine fault =>
      obtain rfl := Option.some.inj stepped
      exact refines.append oneLine careful
  | pending max fault =>
      obtain rfl := Option.some.inj stepped
      exact refines.pending careful
  | markUploaded env =>
      obtain rfl := Option.some.inj stepped
      exact refines.markUploaded careful
  | close =>
      obtain rfl := Option.some.inj stepped
      exact refines.close
  | crash =>
      obtain rfl := Option.some.inj stepped
      exact refines.restart

/-- A read that succeeds returns what the queue of lines would. -/
theorem read (refines : Refines queue model) {max : Nat}
    (clean : ∀ line ∈ model.read max, 0 ∉ line) : ∃ later,
    (AlertQueue.pending max .none).run queue = .returned (model.read max) later := by
  by_cases reads : model.isOpen = true ∧ max ≠ 0
  · exact ⟨_, refines.pending_run reads.1 reads.2 clean⟩
  · refine ⟨queue, ?_⟩
    rw [pending_idle fun here => reads ⟨refines.isOpen.symm.trans here.1, here.2⟩, LineQueue.read]
    split
    next opened =>
      have none : max = 0 := by
        by_contra some
        exact reads ⟨opened, some⟩
      rw [none, List.take_zero]
    next => rfl

end Refines

end Idsm.Managerd
