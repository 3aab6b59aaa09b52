import Idsm.Managerd.ConfigManager

/-! The persistent alert queue: a file of lines and a file with the offset of the next
line to send. The environment decides for each file-system step how it ends. -/

set_option autoImplicit false

namespace Idsm.Managerd

open Idsm.Foundation

/-- The files and the object's members. `discarded` counts the bytes that compactions have
cut off; no operation reads it. -/
structure AlertQueue where
  log : List UInt8
  cursorFile : Option (List UInt8)
  cursorTmp : Option (List UInt8)
  isOpen : Bool
  cursor : Nat
  pendingEnd : Nat
  discarded : Nat
  deriving DecidableEq, Repr

def AlertQueue.empty : AlertQueue := ⟨[], none, none, false, 0, 0, 0⟩

inductive MarkStep where
  | writeCursor
  | renameCursor
  | stat
  | truncate
  | writeZero
  | renameZero
  deriving DecidableEq

/-- `%llu` of `fscanf`; a sign is read and negates. -/
def scanUnsigned (content : List UInt8) : Option Nat :=
  let text := content.dropWhile isSpace
  let negative := text.head? == some 45
  let digits := (if negative || text.head? == some 43 then text.tail else text).takeWhile isDigit
  if digits = [] then none
  else if negative then some ((2 ^ 64 - digitsValue digits % 2 ^ 64) % 2 ^ 64)
  else some (digitsValue digits)

def cursorText (cursor : Nat) : List UInt8 := utf8 (toString cursor)

/-- `getline`: the bytes to the next newline, or to the end of the file. -/
def getline (bytes : List UInt8) : Option (List UInt8 × List UInt8) :=
  match bytes with
  | [] => none
  | _ =>
      match bytes.dropWhile (· ≠ 10) with
      | [] => some (bytes, [])
      | newline :: rest => some (bytes.takeWhile (· ≠ 10) ++ [newline], rest)

/-- Up to `max` lines and how far they reach. A line ends at its first zero byte, and only
the bytes before it count. -/
def readLines : (fuel max : Nat) → List UInt8 → List (List UInt8) × Nat
  | 0, _, _ => ([], 0)
  | _, 0, _ => ([], 0)
  | fuel + 1, max + 1, bytes =>
      match getline bytes with
      | none => ([], 0)
      | some (buf, rest) =>
          let text := buf.takeWhile (· ≠ 0)
          let line := if text.getLast? = some 10 then text.dropLast else text
          if line = [] then
            let (lines, reach) := readLines fuel (max + 1) rest
            (lines, text.length + reach)
          else
            let (lines, reach) := readLines fuel max rest
            (line :: lines, text.length + reach)

abbrev QueueProgram (α : Type) : Type := Program AlertQueue Empty α

namespace AlertQueue

def loadCursor (queue : AlertQueue) : Option Nat := queue.cursorFile.bind scanUnsigned

/-- The cursor on file, zero when there is none. -/
def persisted (queue : AlertQueue) : Nat := queue.loadCursor.getD 0

/-- A cursor past the end of the file is not believed. -/
def recovered (queue : AlertQueue) : Nat :=
  if queue.log.length < queue.persisted then 0 else queue.persisted

/-- `open`; a failed `fopen` leaves the queue closed. -/
def «open» (fault : Fault) : QueueProgram Bool :=
  .step fault
    (fun queue => (true, { queue with isOpen := true, cursor := queue.recovered }))
    (fun _ queue => { queue with cursor := queue.persisted }) false

def lineOf (rawLine : List UInt8) : List UInt8 :=
  if rawLine.getLast? = some 10 then rawLine else rawLine ++ [10]

def append (rawLine : List UInt8) (fault : Fault) : QueueProgram Bool := do
  let opened ← Program.inspect fun queue => queue.isOpen
  if opened then
    .step fault (fun queue => (true, { queue with log := queue.log ++ lineOf rawLine }))
      (fun progress queue =>
        { queue with log := queue.log ++ (lineOf rawLine).take progress }) false
  else return false

def pending (max : Nat) (fault : Fault) : QueueProgram (List (List UInt8)) := do
  let opened ← Program.inspect fun queue => queue.isOpen
  if opened ∧ max ≠ 0 then
    .step fault
      (fun queue =>
        let (lines, reach) := readLines queue.log.length max (queue.log.drop queue.cursor)
        (lines, { queue with pendingEnd := queue.cursor + reach }))
      (fun _ queue => queue) []
  else return []

def saveCursor (write rename : Fault) : QueueProgram Bool := do
  let written ← .step write
    (fun queue => (true, { queue with cursorTmp := some (cursorText queue.cursor) }))
    (fun progress queue =>
      { queue with
        cursorTmp := (ConfigDir.cutText (cursorText queue.cursor) progress).or queue.cursorTmp })
    false
  if written then
    .step rename (fun queue => (true, { queue with cursorFile := queue.cursorTmp, cursorTmp := none }))
      (fun _ queue => queue) false
  else return false

/-- The log emptied; every byte of it counts as cut off. -/
def truncated (queue : AlertQueue) : AlertQueue :=
  { queue with log := [], discarded := queue.discarded + queue.log.length }

def compactIfDrained (env : MarkStep → Fault) : QueueProgram Unit := do
  let drained ← .step (env .stat)
    (fun queue =>
      (queue.isOpen && decide (queue.log.length = queue.cursor ∧ 0 < queue.cursor), queue))
    (fun _ queue => queue) false
  if drained then
    let cut ← .step (env .truncate) (fun queue => (true, queue.truncated))
      (fun progress queue => if progress = 0 then queue else queue.truncated) false
    if cut then
      Program.update fun queue => { queue with cursor := 0 }
      let _ ← saveCursor (env .writeZero) (env .renameZero)
      return ()
    else return ()
  else return ()

def markUploaded (env : MarkStep → Fault) : QueueProgram Bool := do
  let behind ← Program.inspect fun queue => decide (queue.pendingEnd < queue.cursor)
  if behind then return false
  else do
    Program.update fun queue => { queue with cursor := queue.pendingEnd, pendingEnd := 0 }
    let ok ← saveCursor (env .writeCursor) (env .renameCursor)
    compactIfDrained env
    return ok

def close (queue : AlertQueue) : AlertQueue := { queue with isOpen := false }

/-- A new process has a new object. -/
def restart (queue : AlertQueue) : AlertQueue :=
  { queue with isOpen := false, cursor := 0, pendingEnd := 0 }

end AlertQueue

/-- The queue after a call, or after the crash in it. -/
def afterCall {α : Type} : Outcome AlertQueue Empty α → AlertQueue
  | .returned _ queue => queue
  | .threw error _ => nomatch error
  | .crashed queue => queue.restart

inductive QueueEvent where
  | «open» (fault : Fault)
  | append (rawLine : List UInt8) (fault : Fault)
  | pending (max : Nat) (fault : Fault)
  | markUploaded (env : MarkStep → Fault)
  | close
  | crash

def queueStep (queue : AlertQueue) : QueueEvent → Option AlertQueue
  | .open fault =>
      if queue.isOpen then none else some (afterCall ((AlertQueue.open fault).run queue))
  | .append rawLine fault => some (afterCall ((AlertQueue.append rawLine fault).run queue))
  | .pending max fault => some (afterCall ((AlertQueue.pending max fault).run queue))
  | .markUploaded env => some (afterCall ((AlertQueue.markUploaded env).run queue))
  | .close => some queue.close
  | .crash => some queue.restart

end Idsm.Managerd
