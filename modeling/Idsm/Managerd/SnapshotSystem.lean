import Idsm.Foundation.Execution
import Idsm.Foundation.OrderedMap
import Idsm.Managerd.LogSnapshot

/-! The snapshot directory and what the pump and the acknowledgements do to it together: one
action at a time, in any order, with failures and restarts. -/

set_option autoImplicit false

namespace Idsm.Managerd

open Idsm.Foundation
open Idsm.Json (Value)

/-- What the environment makes of an action; a failed write may leave a part of the text. -/
inductive Choice where
  | succeed
  | fail (torn : Bool)
  deriving DecidableEq

/-- The two threads. -/
inductive Side where
  | mainLoop
  | network
  deriving DecidableEq

def Side.other : Side → Side
  | .mainLoop => .network
  | .network => .mainLoop

/-- A chunk that has to be published: by the first pass, or for an acknowledgement. `since`
counts the messages that were published before. -/
structure Ask where
  transfer : String
  index : Nat
  since : Nat
  first : Bool
  deriving DecidableEq

/-- The three directories, and beside them what was published, staged and asked for, and the
transfer that each thread works in. -/
structure SnapshotStore where
  dirs : Place → OrderedMap String TransferDir
  log : List SnapshotMessage
  staged : OrderedMap String (List UInt8)
  asks : List Ask
  inUse : Side → Option String

namespace SnapshotStore

variable (store : SnapshotStore)

def empty : SnapshotStore := ⟨fun _ => .empty, [], .empty, [], fun _ => none⟩

def dir? (place : Place) (transfer : String) : Option TransferDir :=
  (store.dirs place).find? transfer

def setDir (place : Place) (transfer : String) (dir : TransferDir) : SnapshotStore :=
  { store with dirs := Function.update store.dirs place ((store.dirs place).insert transfer dir) }

def eraseDir (place : Place) (transfer : String) : SnapshotStore :=
  { store with dirs := Function.update store.dirs place ((store.dirs place).erase transfer) }

/-- An action of one thread. -/
def performs (side : Side) : (action : SnapshotAct) → Choice → action.Answer × SnapshotStore
  | .enter transfer, _ =>
      ((), { store with inUse := Function.update store.inUse side (some transfer) })
  | .isDirectory place transfer, choice =>
      (choice == .succeed && (store.dir? place transfer).isSome, store)
  | .listPending, .succeed => ((store.dirs .pending).entries.map Prod.fst, store)
  | .listPending, .fail _ => ([], store)
  | .makeDirs transfer, .succeed => (true, store.setDir .pending transfer ⟨.missing, .missing, []⟩)
  | .makeDirs _, .fail _ => (false, store)
  | .writeChunk transfer data, .succeed =>
      match store.dir? .pending transfer with
      | none => (false, store)
      | some dir => (true, store.setDir .pending transfer { dir with chunks := dir.chunks ++ [data] })
  | .writeChunk _ _, .fail _ => (false, store)
  | .readMeta transfer, .succeed =>
      (((store.dir? .pending transfer).map TransferDir.metaJson).getD .missing, store)
  | .readMeta _, .fail _ => (.missing, store)
  | .writeTmp transfer record, .succeed =>
      match store.dir? .pending transfer with
      | none => (false, store)
      | some dir => (true, store.setDir .pending transfer { dir with metaTmp := .whole record })
  | .writeTmp _ _, .fail false => (false, store)
  | .writeTmp transfer _, .fail true =>
      match store.dir? .pending transfer with
      | none => (false, store)
      | some dir => (false, store.setDir .pending transfer { dir with metaTmp := .torn })
  | .renameTmp transfer, .succeed =>
      match store.dir? .pending transfer with
      | none => (false, store)
      | some dir =>
          if dir.metaTmp = .missing then (false, store)
          else (true, store.setDir .pending transfer
            { dir with metaJson := dir.metaTmp, metaTmp := .missing })
  | .renameTmp _, .fail _ => (false, store)
  | .renameDir source target transfer, .succeed =>
      match store.dir? source transfer, store.dir? target transfer with
      | some dir, none => (true, (store.eraseDir source transfer).setDir target transfer dir)
      | _, _ => (false, store)
  | .renameDir _ _ _, .fail _ => (false, store)
  | .readChunk transfer index, .succeed =>
      ((store.dir? .pending transfer).bind fun dir => dir.chunks[index]?, store)
  | .readChunk _ _, .fail _ => (none, store)
  | .publish message, .succeed => (true, { store with log := store.log ++ [message] })
  | .publish _, .fail _ => (false, store)

def leave (side : Side) : SnapshotStore :=
  { store with inUse := Function.update store.inUse side none }

/-- No directory and no staged file of that name. -/
def unknown (transfer : String) : Bool :=
  (store.dir? .pending transfer).isNone && (store.dir? .done transfer).isNone &&
    (store.dir? .expired transfer).isNone && (store.staged.find? transfer).isNone

def asking (transfer : String) (first : Bool) (indices : List Nat) : SnapshotStore :=
  { store with
    asks := store.asks ++ indices.map fun index => ⟨transfer, index, store.log.length, first⟩ }

end SnapshotStore

/-- An acknowledgement in progress. -/
structure NackCall where
  payload : List UInt8
  thread : SnapshotThread NackResult

structure SnapshotSystem where
  store : SnapshotStore
  pump : Option (SnapshotThread PumpResult)
  nack : Option NackCall

def SnapshotSystem.empty : SnapshotSystem := ⟨.empty, none, none⟩

/-- What happens next. A new transfer gets a name that is not in use; it is staged at once,
as far as the choices reach, since the others pass over a directory without a record. -/
inductive SnapshotEvent where
  | stage (req : SnapshotRequest) (contents : Option (List UInt8)) (nowMs : Int)
      (transfer : String) (choices : List Choice)
  | pumpStarts (sender : SnapshotSender) (nowMs : Int)
  | pumpActs (choice : Choice)
  | nackArrives (payload : List UInt8) (nowMs : Int)
  | nackActs (choice : Choice)
  | restart

namespace SnapshotSystem

variable (library : SnapshotLibrary) (system : SnapshotSystem)

/-- After an action of the pump, which may have been the last one. -/
def pumpSettles (store : SnapshotStore) : SnapshotThread PumpResult → SnapshotSystem
  | .done _ => { system with store := store.leave .mainLoop, pump := none }
  | thread => { system with store, pump := some thread }

/-- An accepted acknowledgement asks for its chunks from now on. -/
def nackSettles (store : SnapshotStore) (payload : List UInt8) :
    SnapshotThread NackResult → SnapshotSystem
  | .done (.accepted transfer missing) =>
      { system with store := (store.asking transfer false missing).leave .network, nack := none }
  | .done _ => { system with store := store.leave .network, nack := none }
  | thread => { system with store, nack := some ⟨payload, thread⟩ }

/-- A staged transfer asks for each of its chunks. -/
def stageSettles (req : SnapshotRequest) (contents : Option (List UInt8)) (nowMs : Int)
    (transfer : String) (choices : List Choice) : SnapshotSystem :=
  let (result, store) := (stageUpload library req contents nowMs transfer).runAlone
    (fun store => store.performs .mainLoop) choices system.store
  match result, contents with
  | some (.ok _, _), some bytes =>
      let total := (splitChunks bytes.length bytes).length
      let store := { store with staged := store.staged.insert transfer bytes }
      { system with store := store.asking transfer true (List.range total) }
  | _, _ => { system with store }

def step : SnapshotEvent → Option SnapshotSystem
  | .stage req contents nowMs transfer choices =>
      if system.store.unknown transfer then
        some (system.stageSettles library req contents nowMs transfer choices)
      else none
  | .pumpStarts sender nowMs =>
      match system.pump with
      | none => some (system.pumpSettles system.store (Managerd.pump library sender nowMs))
      | some _ => none
  | .pumpActs choice =>
      match system.pump with
      | some (.act action next) =>
          let (answer, store) := system.store.performs .mainLoop action choice
          some (system.pumpSettles store (next answer))
      | _ => none
  | .nackArrives payload nowMs =>
      match system.nack with
      | none => some (system.nackSettles system.store payload (onNack library nowMs payload))
      | some _ => none
  | .nackActs choice =>
      match system.nack with
      | some ⟨payload, .act action next⟩ =>
          let (answer, store) := system.store.performs .network action choice
          some (system.nackSettles store payload (next answer))
      | _ => none
  | .restart =>
      some ⟨(system.store.leave .mainLoop).leave .network, none, none⟩

end SnapshotSystem

end Idsm.Managerd
