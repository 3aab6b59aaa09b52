import Idsm.Managerd.LineQueue

/-! The queue hands out the appended lines one by one, in order and byte for byte, unless a
line holds a zero byte, a torn line gets another one appended, or a batch is marked after a
read of nothing. -/

set_option autoImplicit false

namespace Idsm.Managerd

open Idsm.Foundation

section Torn

/-- The log holds the lines of the line queue, and a read returns its next lines. -/
structure KeepsLines (past : QueuePast) (transition : Transition AlertQueue QueueEvent) : Prop where
  stored : Holds (LineQueue.after (past ++ [transition])).lines transition.after.log
  read : ∀ max, transition.event = .pending max .none →
    (AlertQueue.pending max .none).run transition.before =
      .returned ((LineQueue.after past).read max) transition.after

/-- What a call needs to leave the lines as they are. -/
def AllowedCall (past : QueuePast) (queue : AlertQueue) (event : QueueEvent) : Prop :=
  OneLine event ∧ LineCareful queue (LineQueue.after past) event

variable {past : QueuePast} {queue later : AlertQueue} {event : QueueEvent}

theorem Refines.step_past (refines : Refines queue (LineQueue.after past))
    (allowed : AllowedCall past queue event) (stepped : queueStep queue event = some later) :
    Refines later (LineQueue.after (past ++ [⟨queue, event, later⟩])) := by
  rw [LineQueue.after_concat]
  exact refines.step allowed.1 allowed.2 stepped

theorem Refines.keepsLines (refines : Refines queue (LineQueue.after past))
    (allowed : AllowedCall past queue event) (stepped : queueStep queue event = some later) :
    KeepsLines past ⟨queue, event, later⟩ := by
  refine ⟨(refines.step_past allowed stepped).holds, fun max reads => ?_⟩
  obtain rfl : event = .pending max .none := reads
  obtain ⟨ended, ran⟩ := refines.read (allowed.2 rfl)
  rw [queueStep, ran] at stepped
  obtain rfl : ended = later := Option.some.inj stepped
  exact ran

theorem queue_keepsLines_of_careful {transitions : QueuePast} {last : AlertQueue}
    (run : Execution queueStep AlertQueue.empty transitions last)
    (careful : ∀ past transition rest, transitions = past ++ transition :: rest →
      AllowedCall past transition.before transition.event) :
    ∀ past transition rest, transitions = past ++ transition :: rest →
      KeepsLines past transition :=
  run.forall_past AllowedCall Refines.step_past Refines.keepsLines Refines.empty careful

/-- A short write and a crash, each read before the next line comes, and a full disk. -/
def tornRun : List QueueEvent :=
  [.open .none, .append [97, 98] (.fail 1), .pending 64 .none, .markUploaded soundMark,
    .append [99, 100] .none, .append [101] (.crash 1), .open .none, .append [102] (.fail 0),
    .pending 64 .none]

theorem queue_keepsLines_sample : ∃ transitions last,
    execute queueStep AlertQueue.empty tornRun = some (transitions, last) ∧
      last.log = [99, 100, 10, 101] ∧
      ∀ past transition rest, transitions = past ++ transition :: rest →
        KeepsLines past transition := by
  refine ⟨_, _, rfl, rfl, queue_keepsLines_of_careful
    (execution_of_execute (show execute _ _ tornRun = _ from rfl)) ?_⟩
  refine Execution.forall_splits_cons ⟨trivial, trivial⟩
    (Execution.forall_splits_cons ⟨by decide, fun _ _ => .inl rfl⟩
    (Execution.forall_splits_cons ⟨trivial, fun _ => by decide⟩
    (Execution.forall_splits_cons ⟨trivial, fun _ => .inl ⟨rfl, rfl⟩⟩
    (Execution.forall_splits_cons ⟨by decide, fun _ _ => .inl rfl⟩
    (Execution.forall_splits_cons ⟨by decide, fun _ _ => .inr rfl⟩
    (Execution.forall_splits_cons ⟨trivial, trivial⟩
    (Execution.forall_splits_cons ⟨by decide, fun _ impossible => absurd rfl impossible⟩
    (Execution.forall_splits_cons ⟨trivial, fun _ => by decide⟩
      Execution.forall_splits_nil))))))))

/-- A line behind a torn one. -/
def joinedRun : List QueueEvent :=
  [.open .none, .append [97, 98] (.fail 1), .append [99] .none, .pending 64 .none]

/-- The rest of the torn line and the next line come back as one. -/
theorem queue_joins_torn_line : ∃ transitions last,
    Execution queueStep AlertQueue.empty transitions last ∧
      (∀ transition ∈ transitions, OneLine transition.event) ∧
      ∃ past transition rest, transitions = past ++ transition :: rest ∧
        ¬ KeepsLines past transition := by
  refine ⟨_, _, execution_of_execute (show execute _ _ joinedRun = _ from rfl), ?_,
    [_, _, _], _, [], rfl, fun keeps => ?_⟩
  · simp only [List.forall_mem_cons]
    exact ⟨trivial, by decide, by decide, trivial, fun _ none => nomatch none⟩
  · have joined := keeps.read 64 rfl
    exact absurd (Outcome.returned.inj joined).1 (by decide)

end Torn

section Aligned

/-- The lines that no marked batch has taken, and how many of them the last read returned.
`emptyRead` says that it asked for none. -/
structure WaitingLines where
  lines : List (List UInt8)
  returned : Nat
  emptyRead : Bool

def WaitingLines.call (waiting : WaitingLines) : QueueEvent → WaitingLines
  | .append rawLine _ => { waiting with lines := waiting.lines ++ [textOf rawLine] }
  | .pending max _ =>
      { waiting with returned := min max waiting.lines.length, emptyRead := max == 0 }
  | .markUploaded _ => ⟨waiting.lines.drop waiting.returned, 0, false⟩
  | _ => waiting

def waitingAfter (past : QueuePast) : WaitingLines :=
  past.foldl (fun waiting transition => waiting.call transition.event) ⟨[], 0, false⟩

/-- A line is appended, or read, or a batch is marked, and the files do their part. -/
inductive SoundCall : QueueEvent → Prop where
  | append {line : List UInt8} (nonempty : line ≠ []) (oneLine : 10 ∉ line) :
      SoundCall (.append line .none)
  | pending (max : Nat) : SoundCall (.pending max .none)
  | markUploaded : SoundCall (.markUploaded soundMark)

theorem textOf_of_oneLine {line : List UInt8} (oneLine : 10 ∉ line) : textOf line = line :=
  if_neg fun last => oneLine (List.mem_of_getLast? last)

theorem SoundCall.oneLine {event : QueueEvent} (sound : SoundCall event) : OneLine event := by
  cases sound with
  | append nonempty oneLine =>
      rw [OneLine, textOf_of_oneLine oneLine]
      exact ⟨nonempty, oneLine⟩
  | pending max => trivial
  | markUploaded => trivial

/-- The lines to read hold no zero byte, and no batch is marked after a read of nothing. -/
def AlignedCall (past : QueuePast) (queue : AlertQueue) : QueueEvent → Prop
  | .pending max _ => ∀ line ∈ (waitingAfter past).lines.take max, 0 ∉ line
  | .markUploaded _ => (waitingAfter past).emptyRead = true → queue.pendingEnd ≤ queue.cursor
  | _ => True

/-- The cursor stands behind whole lines and before the waiting ones, and a read returns the
first of these. -/
structure KeepsAligned (past : QueuePast) (transition : Transition AlertQueue QueueEvent) :
    Prop where
  cursor : ∃ consumed,
    transition.after.log = unlines (consumed ++ (waitingAfter (past ++ [transition])).lines) ∧
      transition.after.cursor = (unlines consumed).length
  read : ∀ max, transition.event = .pending max .none →
    (AlertQueue.pending max .none).run transition.before =
      .returned ((waitingAfter past).lines.take max) transition.after

/-- The queue of lines waits with these lines, and its batch is the one last read. -/
structure Follows (model : LineQueue) (waiting : WaitingLines) : Prop where
  isOpen : model.isOpen = true
  lines : waiting.lines = model.lines.drop model.next
  returned : waiting.emptyRead = true → waiting.returned = 0
  batch : waiting.emptyRead = false →
    model.batchEnd = model.next + waiting.returned ∨
      waiting.returned = 0 ∧ model.batchEnd ≤ model.next

/-- The files hold the whole lines of a queue that follows the calls. -/
structure AlignedQueue (past : QueuePast) (queue : AlertQueue) (model : LineQueue) : Prop where
  refines : Refines queue model
  ended : queue.log = [] ∨ queue.log.getLast? = some 10
  follows : Follows model (waitingAfter past)

theorem waitingAfter_concat (past : QueuePast) (queue later : AlertQueue) (event : QueueEvent) :
    waitingAfter (past ++ [⟨queue, event, later⟩]) = (waitingAfter past).call event := by
  rw [waitingAfter, List.foldl_append]
  rfl

/-- The log is as it was, or emptied. -/
def KeepsLog (log : List UInt8) (queue : AlertQueue) : Prop := queue.log = log ∨ queue.log = []

/-- A program that keeps the log or empties it leaves no torn line behind. -/
theorem KeepsLog.ended {α : Type} {program : QueueProgram α} {queue : AlertQueue}
    (keeps : Program.Triple (KeepsLog queue.log) program (fun _ => KeepsLog queue.log)
      (fun _ => KeepsLog queue.log) (KeepsLog queue.log))
    (ended : queue.log = [] ∨ queue.log.getLast? = some 10) :
    (afterCall (program.run queue)).log = [] ∨
      (afterCall (program.run queue)).log.getLast? = some 10 := by
  have reached : KeepsLog queue.log (program.run queue).store := keeps.store_of (.inl rfl)
  have same : (afterCall (program.run queue)).log = (program.run queue).store.log := by
    cases program.run queue with
    | returned value queue => rfl
    | threw error queue => exact nomatch error
    | crashed queue => rfl
  rw [same]
  obtain kept | empty := reached
  · rw [kept]
    exact ended
  · exact .inl empty

theorem keepsLog_pending (log : List UInt8) (max : Nat) (fault : Fault) :
    Program.Triple (KeepsLog log) (AlertQueue.pending max fault) (fun _ => KeepsLog log)
      (fun _ => KeepsLog log) (KeepsLog log) := by
  apply Program.Triple.bind (fun _ => KeepsLog log)
  · exact .inspect fun _ kept => kept
  · intro opened
    split
    next => exact .step (fun _ _ kept => kept) (fun _ _ _ kept => kept) (fun _ _ _ kept => kept)
    next => exact .pure fun _ kept => kept

theorem keepsLog_saveCursor (log : List UInt8) (write rename : Fault) :
    Program.Triple (KeepsLog log) (AlertQueue.saveCursor write rename) (fun _ => KeepsLog log)
      (fun _ => KeepsLog log) (KeepsLog log) := by
  apply Program.Triple.bind (fun _ => KeepsLog log)
  · exact .step (fun _ _ kept => kept) (fun _ _ _ kept => kept) (fun _ _ _ kept => kept)
  · intro written
    cases written with
    | true => exact .step (fun _ _ kept => kept) (fun _ _ _ kept => kept) (fun _ _ _ kept => kept)
    | false => exact .pure fun _ kept => kept

theorem keepsLog_compactIfDrained (log : List UInt8) (env : MarkStep → Fault) :
    Program.Triple (KeepsLog log) (AlertQueue.compactIfDrained env) (fun _ => KeepsLog log)
      (fun _ => KeepsLog log) (KeepsLog log) := by
  have torn : ∀ (progress : Nat) (queue : AlertQueue), KeepsLog log queue →
      KeepsLog log (if progress = 0 then queue else queue.truncated) := by
    intro progress queue kept
    split
    next => exact kept
    next => exact .inr rfl
  apply Program.Triple.bind (fun _ => KeepsLog log)
  · exact .step (fun _ _ kept => kept) (fun _ _ _ kept => kept) (fun _ _ _ kept => kept)
  · intro drained
    cases drained with
    | false => exact .pure fun _ kept => kept
    | true =>
        apply Program.Triple.bind (fun _ => KeepsLog log)
        · exact .step (fun _ _ _ => .inr rfl) (fun progress _ queue kept => torn progress queue kept)
            (fun progress _ queue kept => torn progress queue kept)
        · intro cut
          cases cut with
          | false => exact .pure fun _ kept => kept
          | true =>
              apply Program.Triple.bind (fun _ => KeepsLog log)
              · exact .update fun _ kept => kept
              · intro _
                apply Program.Triple.bind (fun _ => KeepsLog log)
                · exact keepsLog_saveCursor log _ _
                · exact fun _ => .pure fun _ kept => kept

theorem keepsLog_markUploaded (log : List UInt8) (env : MarkStep → Fault) :
    Program.Triple (KeepsLog log) (AlertQueue.markUploaded env) (fun _ => KeepsLog log)
      (fun _ => KeepsLog log) (KeepsLog log) := by
  apply Program.Triple.bind (fun _ => KeepsLog log)
  · exact .inspect fun _ kept => kept
  · intro behind
    cases behind with
    | true => exact .pure fun _ kept => kept
    | false =>
        apply Program.Triple.bind (fun _ => KeepsLog log)
        · exact .update fun _ kept => kept
        · intro _
          apply Program.Triple.bind (fun _ => KeepsLog log)
          · exact keepsLog_saveCursor log _ _
          · intro _
            apply Program.Triple.bind (fun _ => KeepsLog log)
            · exact keepsLog_compactIfDrained log env
            · exact fun _ => .pure fun _ kept => kept

namespace Follows

variable {model : LineQueue} {waiting : WaitingLines}

theorem read (follows : Follows model waiting) (max : Nat) :
    model.read max = waiting.lines.take max := by
  rw [LineQueue.read, if_pos follows.isOpen, follows.lines]

theorem append {line : List UInt8} (follows : Follows model waiting) (nonempty : line ≠ [])
    (oneLine : textOf line = line) (inside : model.next ≤ model.lines.length) :
    Follows (model.append line .none) (waiting.call (.append line .none)) := by
  rw [LineQueue.append.eq_def, if_pos follows.isOpen]
  simp only [LineQueue.add, oneLine, if_neg nonempty, WaitingLines.call]
  refine { follows with lines := ?_ }
  change _ = (model.lines ++ [line]).drop model.next
  rw [List.drop_append_of_le_length inside, follows.lines]

theorem pending (follows : Follows model waiting) (max : Nat)
    (inside : model.next ≤ model.lines.length) :
    Follows (model.pending max .none) (waiting.call (.pending max .none)) := by
  rw [LineQueue.pending.eq_def]
  cases max with
  | zero =>
      rw [if_neg fun asked => asked.2 rfl]
      exact ⟨follows.isOpen, follows.lines, fun _ => Nat.zero_min _, by rintro ⟨⟩⟩
  | succ max =>
      rw [if_pos ⟨follows.isOpen, Nat.succ_ne_zero max⟩]
      refine ⟨follows.isOpen, follows.lines, (by rintro ⟨⟩), fun _ => .inl ?_⟩
      change min (model.next + (max + 1)) model.lines.length =
        model.next + min (max + 1) waiting.lines.length
      rw [follows.lines, List.length_drop]
      omega

/-- A batch that can be marked is the one last read. -/
theorem batchEnd (follows : Follows model waiting)
    (fresh : waiting.emptyRead = true → model.batchEnd ≤ model.next)
    (ahead : ¬ model.batchEnd < model.next) :
    model.batchEnd = model.next + waiting.returned := by
  cases asked : waiting.emptyRead with
  | true =>
      have none := follows.returned asked
      have short := fresh asked
      omega
  | false =>
      obtain batch | ⟨none, short⟩ := follows.batch asked
      · exact batch
      · omega

theorem markUploaded (follows : Follows model waiting)
    (fresh : waiting.emptyRead = true → model.batchEnd ≤ model.next) :
    Follows (model.markUploaded soundMark) (waiting.call (.markUploaded soundMark)) := by
  by_cases behind : model.batchEnd < model.next
  · have none : waiting.returned = 0 := by
      cases asked : waiting.emptyRead with
      | true => exact follows.returned asked
      | false =>
          obtain batch | ⟨none, _⟩ := follows.batch asked
          · omega
          · exact none
    rw [LineQueue.markUploaded, if_pos behind]
    refine ⟨follows.isOpen, ?_, (fun impossible => nomatch impossible),
      fun _ => .inr ⟨rfl, Nat.le_of_lt behind⟩⟩
    change waiting.lines.drop waiting.returned = _
    rw [none, List.drop_zero, follows.lines]
  · have batch := follows.batchEnd fresh behind
    have lines : waiting.lines.drop waiting.returned = model.lines.drop model.batchEnd := by
      rw [batch, follows.lines, List.drop_drop]
    have lives : ¬ Dies .none .none := id
    simp only [LineQueue.markUploaded, if_neg behind, soundMark, if_neg lives,
      LineQueue.compact.eq_def]
    split
    next drained =>
      refine ⟨follows.isOpen, ?_, (fun impossible => nomatch impossible),
        fun _ => .inr ⟨rfl, Nat.le_refl _⟩⟩
      change waiting.lines.drop waiting.returned = _
      rw [lines, drained.2.1, List.drop_length]
      rfl
    next =>
      exact ⟨follows.isOpen, lines, (fun impossible => nomatch impossible),
        fun _ => .inr ⟨rfl, Nat.zero_le _⟩⟩

end Follows

variable {past : QueuePast} {queue later : AlertQueue} {event : QueueEvent}

theorem AlignedQueue.step (aligned : ∃ model, AlignedQueue past queue model)
    (allowed : SoundCall event ∧ AlignedCall past queue event)
    (stepped : queueStep queue event = some later) :
    ∃ model, AlignedQueue (past ++ [⟨queue, event, later⟩]) later model := by
  obtain ⟨model, refines, ended, follows⟩ := aligned
  obtain ⟨sound, careful⟩ := allowed
  have line := sound.oneLine
  cases sound with
  | @append text nonempty newlineFree =>
      refine ⟨_, refines.step line (fun _ _ => ended) stepped, ?_, ?_⟩
      · obtain rfl := Option.some.inj stepped
        rw [AlertQueue.append, Program.run_bind, Program.run_inspect, Outcome.andThen_returned,
          refines.isOpen, if_pos follows.isOpen]
        right
        change (queue.log ++ AlertQueue.lineOf text).getLast? = some 10
        rw [lineOf_eq, ← List.append_assoc, List.getLast?_concat]
      · rw [waitingAfter_concat]
        exact follows.append nonempty (textOf_of_oneLine newlineFree) refines.next
  | pending max =>
      have clean : LineCareful queue model (.pending max .none) := by
        intro _
        rw [follows.read]
        exact careful
      refine ⟨_, refines.step line clean stepped, ?_, ?_⟩
      · obtain rfl := Option.some.inj stepped
        exact KeepsLog.ended (keepsLog_pending _ _ _) ended
      · rw [waitingAfter_concat]
        exact follows.pending max refines.next
  | markUploaded =>
      have safe : LineCareful queue model (.markUploaded soundMark) := fun _ => .inl ⟨rfl, rfl⟩
      have fresh : (waitingAfter past).emptyRead = true → model.batchEnd ≤ model.next := by
        intro none
        have short := careful none
        rw [refines.atBatchEnd, refines.atNext] at short
        by_contra order
        exact absurd (refines.holds.offsetIn_lt (Nat.lt_of_not_le order) refines.batchEnd)
          (Nat.not_lt.mpr short)
      refine ⟨_, refines.step line safe stepped, ?_, ?_⟩
      · obtain rfl := Option.some.inj stepped
        exact KeepsLog.ended (keepsLog_markUploaded _ _) ended
      · rw [waitingAfter_concat]
        exact follows.markUploaded fresh

theorem AlignedQueue.keepsAligned (aligned : ∃ model, AlignedQueue past queue model)
    (allowed : SoundCall event ∧ AlignedCall past queue event)
    (stepped : queueStep queue event = some later) : KeepsAligned past ⟨queue, event, later⟩ := by
  refine ⟨?_, fun max reads => ?_⟩
  · obtain ⟨model, refines, ended, follows⟩ := AlignedQueue.step aligned allowed stepped
    have whole := refines.holds.whole ended
    refine ⟨model.lines.take model.next, ?_, ?_⟩
    · rw [follows.lines, List.take_append_drop]
      exact whole
    · rw [refines.atNext, whole, offsetIn, Nat.min_eq_left lineOffset_le_length]
      rfl
  · obtain rfl : event = .pending max .none := reads
    obtain ⟨model, refines, ended, follows⟩ := aligned
    have clean : ∀ line ∈ model.read max, 0 ∉ line := by
      rw [follows.read]
      exact allowed.2
    obtain ⟨ended, ran⟩ := refines.read clean
    rw [queueStep, ran] at stepped
    obtain rfl : ended = later := Option.some.inj stepped
    rw [← follows.read]
    exact ran

/-- A new queue, opened. -/
def AlertQueue.opened : AlertQueue := afterCall ((AlertQueue.open .none).run .empty)

theorem AlignedQueue.opened : ∃ model, AlignedQueue [] AlertQueue.opened model :=
  ⟨_, Refines.empty.open .none, .inl rfl, rfl, rfl, (fun impossible => nomatch impossible),
    fun _ => .inl rfl⟩

theorem queue_keepsAligned_of_careful {transitions : QueuePast} {last : AlertQueue}
    (run : Execution queueStep AlertQueue.opened transitions last)
    (careful : ∀ past transition rest, transitions = past ++ transition :: rest →
      SoundCall transition.event ∧ AlignedCall past transition.before transition.event) :
    ∀ past transition rest, transitions = past ++ transition :: rest →
      KeepsAligned past transition :=
  run.forall_past (fun past queue event => SoundCall event ∧ AlignedCall past queue event)
    AlignedQueue.step AlignedQueue.keepsAligned AlignedQueue.opened careful

/-- Two lines in two batches, the second one marked twice. -/
def batchRun : List QueueEvent :=
  [.append [97] .none, .append [98, 99] .none, .pending 1 .none, .markUploaded soundMark,
    .pending 64 .none, .markUploaded soundMark, .markUploaded soundMark]

theorem queue_keepsAligned_sample : ∃ transitions last,
    execute queueStep AlertQueue.opened batchRun = some (transitions, last) ∧
      ∀ past transition rest, transitions = past ++ transition :: rest →
        KeepsAligned past transition := by
  have fresh : ∀ past queue, (waitingAfter past).emptyRead = false →
      AlignedCall past queue (.markUploaded soundMark) := by
    intro past queue read none
    rw [read] at none
    exact nomatch none
  have clean : ∀ past queue max, (∀ line ∈ (waitingAfter past).lines.take max, 0 ∉ line) →
      AlignedCall past queue (.pending max .none) := fun _ _ _ zeroFree => zeroFree
  refine ⟨_, _, rfl, queue_keepsAligned_of_careful
    (execution_of_execute (show execute _ _ batchRun = _ from rfl)) ?_⟩
  refine Execution.forall_splits_cons ⟨.append (by decide) (by decide), trivial⟩
    (Execution.forall_splits_cons ⟨.append (by decide) (by decide), trivial⟩
    (Execution.forall_splits_cons ⟨.pending 1, clean _ _ _ (by decide)⟩
    (Execution.forall_splits_cons ⟨.markUploaded, fresh _ _ rfl⟩
    (Execution.forall_splits_cons ⟨.pending 64, clean _ _ _ (by decide)⟩
    (Execution.forall_splits_cons ⟨.markUploaded, fresh _ _ rfl⟩
    (Execution.forall_splits_cons ⟨.markUploaded, fresh _ _ rfl⟩
      Execution.forall_splits_nil))))))

def zeroByteRun : List QueueEvent := [.append [97, 0, 98] .none, .pending 64 .none]

/-- A line comes back cut at its zero byte. -/
theorem queue_cuts_line_at_zero : ∃ transitions last,
    Execution queueStep AlertQueue.opened transitions last ∧
      (∀ transition ∈ transitions, SoundCall transition.event) ∧
      ∃ past transition rest, transitions = past ++ transition :: rest ∧
        ¬ KeepsAligned past transition := by
  refine ⟨_, _, execution_of_execute (show execute _ _ zeroByteRun = _ from rfl), ?_,
    [_], _, [], rfl, fun keeps => ?_⟩
  · simp only [List.forall_mem_cons]
    exact ⟨.append (by decide) (by decide), .pending 64, fun _ none => nomatch none⟩
  · have cut := keeps.read 64 rfl
    exact absurd (Outcome.returned.inj cut).1 (by decide)

/-- A read of nothing does not give the batch before it back. -/
def emptyReadRun : List QueueEvent :=
  [.append [97] .none, .pending 64 .none, .pending 0 .none, .markUploaded soundMark]

example : ((execute queueStep AlertQueue.opened emptyReadRun).map fun run => run.2.log) =
    some [] := by
  decide

end Aligned

end Idsm.Managerd
