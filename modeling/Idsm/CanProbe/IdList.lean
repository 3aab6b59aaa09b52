import Idsm.Foundation.CText

/-! The file of known CAN identifiers: one line for each, with the smallest interval between
two of its frames behind it. -/

set_option autoImplicit false

namespace Idsm.CanProbe

open Idsm.Foundation

/-- What the cycle check knows of an identifier. -/
structure IdState where
  minMs : UInt32
  seen : Bool
  lastMs : UInt64
  mutedUntil : UInt64
  deriving DecidableEq, Repr

/-- The whitelist and the table of the cycle check. -/
structure IdTables where
  known : List UInt32
  ids : List (UInt32 × IdState)
  deriving DecidableEq, Repr

namespace IdTables

def empty : IdTables := ⟨[], []⟩

def addKnown (tables : IdTables) (canId : UInt32) : IdTables :=
  if canId ∈ tables.known then tables else { tables with known := tables.known ++ [canId] }

def addMinInterval (tables : IdTables) (canId minIntervalMs : UInt32) : IdTables :=
  if canId ∈ tables.ids.map Prod.fst then
    { tables with
      ids := tables.ids.map fun (id, state) =>
        (id, if id = canId then { state with minMs := minIntervalMs } else state) }
  else { tables with ids := tables.ids ++ [(canId, ⟨minIntervalMs, false, 0, 0⟩)] }

end IdTables

/-- A word of a stream, and what follows it. -/
def nextToken (text : List UInt8) : Option (List UInt8 × List UInt8) :=
  let behind := text.dropWhile isSpace
  if behind = [] then none
  else some (behind.takeWhile (!isSpace ·), behind.dropWhile (!isSpace ·))

/-- The words of a line that are read; a mark starts a comment. -/
def lineTokens (line : List UInt8) : Option (List UInt8 × Option (List UInt8)) :=
  (nextToken (cutAt 35 line).1).map fun (idTok, rest) => (idTok, (nextToken rest).map Prod.fst)

/-- The tables after a line, and whether it counts as skipped. -/
def loadIdsLine (tables : IdTables) (line : List UInt8) : IdTables × Bool :=
  match lineTokens line with
  | none => (tables, false)
  | some (idTok, minTok) =>
      match strtoul 16 (cString idTok) with
      | some (id, []) =>
          if 0x1FFFFFFF < id then (tables, true)
          else
            let tables := tables.addKnown id.toUInt32
            match minTok with
            | none => (tables, false)
            | some minTok =>
                match strtoul 10 (cString minTok) with
                | some (minMs, []) =>
                    if minMs = 0 then (tables, true)
                    else (tables.addMinInterval id.toUInt32 minMs.toUInt32, false)
                | _ => (tables, true)
      | _ => (tables, true)

/-- The tables after these lines, and how many were skipped. -/
def loadIdsLines (tables : IdTables) (lines : List (List UInt8)) : IdTables × Nat :=
  lines.foldl (fun (tables, skipped) line =>
    let (tables, skips) := loadIdsLine tables line
    (tables, if skips then skipped + 1 else skipped)) (tables, 0)

/-- `load_ids` of a file, or of none that can be opened. -/
def loadIds (tables : IdTables) (file : Option (List UInt8)) : Option (IdTables × Nat) :=
  file.map fun content => loadIdsLines tables (fields 10 content)

end Idsm.CanProbe
