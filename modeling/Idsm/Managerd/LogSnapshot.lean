import Idsm.Foundation.Threads
import Idsm.Managerd.SignedBundle

/-! The upload of log snapshots in chunks: staging, the pump of the main loop and the negative
acknowledgements of the network thread, as threads of file operations and publishes. -/

set_option autoImplicit false

namespace Idsm.Managerd

open Idsm.Foundation
open Idsm.Json (Value)

def kSnapshotChunkSize : Nat := 128 * 1024
def kSnapshotTransferTtlMs : Int := 24 * 3600 * 1000
def kSnapshotMaxFileSize : Nat := 64 * 1024 * 1024
def kSnapshotChunksPerPump : Nat := 8

structure SnapshotRequest where
  file : String
  eventId : String
  remark : String
  deriving DecidableEq

/-- `meta.json`. -/
structure SnapshotMeta where
  transferId : String
  filename : String
  totalSize : Nat
  totalChunks : Nat
  sha256 : String
  logTime : String
  eventId : String
  ecuCode : String
  remark : String
  createdMs : Int
  replay : Bool
  metaSent : Bool
  nextChunks : List Nat
  deriving DecidableEq

/-- A file that holds such a record; a text that was cut short does not parse. -/
inductive MetaFile where
  | missing
  | torn
  | whole (record : SnapshotMeta)
  deriving DecidableEq

/-- The directory of a transfer. -/
structure TransferDir where
  metaJson : MetaFile
  metaTmp : MetaFile
  chunks : List (List UInt8)
  deriving DecidableEq

inductive Place where
  | pending
  | done
  | expired
  deriving DecidableEq

structure MetaEnvelope where
  timestamp : Int
  manufacturer : String
  transferId : String
  filename : String
  totalSize : Nat
  totalChunks : Nat
  sha256 : String
  logTime : String
  ecuCode : String
  replay : Bool
  eventId : Option String
  remark : Option String
  deriving DecidableEq

structure ChunkEnvelope where
  timestamp : Int
  manufacturer : String
  transferId : String
  chunkIndex : Nat
  chunkSha256 : String
  data : String
  deriving DecidableEq

inductive SnapshotMessage where
  | snapshot (topic : String) (envelope : MetaEnvelope)
  | chunk (topic : String) (envelope : ChunkEnvelope)
  deriving DecidableEq

/-- The digest, the parser of the network's payloads and the local time are the libraries'. -/
structure SnapshotLibrary where
  sha256Hex : List UInt8 → String
  parse : List UInt8 → Except (List UInt8) Value
  iso8601Local : Int → String

/-- The arguments of the pump that its messages repeat. -/
structure SnapshotSender where
  manufacturer : String
  deviceId : String
  ecuCode : String

def SnapshotSender.topic (sender : SnapshotSender) : String :=
  "oc/devices/" ++ sender.deviceId ++ "/sys/log/report"

/-- `enter` only marks from where to where a thread works in a transfer's directory. -/
inductive SnapshotAct where
  | enter (transfer : String)
  | isDirectory (place : Place) (transfer : String)
  | listPending
  | makeDirs (transfer : String)
  | writeChunk (transfer : String) (data : List UInt8)
  | readMeta (transfer : String)
  | writeTmp (transfer : String) (record : SnapshotMeta)
  | renameTmp (transfer : String)
  | renameDir (source target : Place) (transfer : String)
  | readChunk (transfer : String) (index : Nat)
  | publish (message : SnapshotMessage)
  deriving DecidableEq

def SnapshotAct.Answer : SnapshotAct → Type
  | .enter _ => Unit
  | .listPending => List String
  | .readMeta _ => MetaFile
  | .readChunk _ _ => Option (List UInt8)
  | _ => Bool

abbrev SnapshotThread : Type → Type := Thread SnapshotAct SnapshotAct.Answer

section Acts

variable (transfer : String)

def enter : SnapshotThread Unit := Thread.perform (SnapshotAct.enter transfer)

def isDirectory (place : Place) : SnapshotThread Bool :=
  Thread.perform (SnapshotAct.isDirectory place transfer)

def listPending : SnapshotThread (List String) := Thread.perform SnapshotAct.listPending

def makeDirs : SnapshotThread Bool := Thread.perform (SnapshotAct.makeDirs transfer)

def writeChunk (data : List UInt8) : SnapshotThread Bool :=
  Thread.perform (SnapshotAct.writeChunk transfer data)

def readMeta : SnapshotThread MetaFile := Thread.perform (SnapshotAct.readMeta transfer)

def writeTmp (record : SnapshotMeta) : SnapshotThread Bool :=
  Thread.perform (SnapshotAct.writeTmp transfer record)

def renameTmp : SnapshotThread Bool := Thread.perform (SnapshotAct.renameTmp transfer)

def renameDir (source target : Place) : SnapshotThread Bool :=
  Thread.perform (SnapshotAct.renameDir source target transfer)

def readChunk (index : Nat) : SnapshotThread (Option (List UInt8)) :=
  Thread.perform (SnapshotAct.readChunk transfer index)

def publish (message : SnapshotMessage) : SnapshotThread Bool :=
  Thread.perform (SnapshotAct.publish message)

end Acts

section Staging

/-- The file in pieces of the chunk size. -/
def splitChunks : (fuel : Nat) → List UInt8 → List (List UInt8)
  | 0, _ => []
  | fuel + 1, bytes =>
      if bytes = [] then []
      else bytes.take kSnapshotChunkSize :: splitChunks fuel (bytes.drop kSnapshotChunkSize)

/-- `chunk_%06zu`. -/
def chunkName (index : Nat) : String :=
  "chunk_" ++ String.ofList (List.leftpad 6 '0' (toString index).toList)

def fileName (path : String) : String :=
  String.ofList (path.toList.reverse.takeWhile (· != '/')).reverse

/-- An error text, when there was one. -/
def saveMeta (transfer : String) (record : SnapshotMeta) : SnapshotThread (Option String) := do
  if ← writeTmp transfer record then
    if ← renameTmp transfer then return none
    else return some "meta rename: Input/output error"
  else return some "meta write failed"

def writeChunks (transfer : String) (index : Nat) :
    List (List UInt8) → SnapshotThread (Option String)
  | [] => return none
  | data :: later => do
      if ← writeChunk transfer data then writeChunks transfer (index + 1) later
      else return some ("chunk write: " ++ chunkName index)

def stagedMeta (library : SnapshotLibrary) (req : SnapshotRequest) (bytes : List UInt8)
    (nowMs : Int) (transfer : String) : SnapshotMeta where
  transferId := transfer
  filename := fileName req.file
  totalSize := bytes.length
  totalChunks := (splitChunks bytes.length bytes).length
  sha256 := library.sha256Hex bytes
  logTime := library.iso8601Local nowMs
  eventId := req.eventId
  ecuCode := ""
  remark := req.remark
  createdMs := nowMs
  replay := false
  metaSent := false
  nextChunks := List.range (splitChunks bytes.length bytes).length

/-- `transfer` is the random id of the directory, `contents` what the file reads as. -/
def stageUpload (library : SnapshotLibrary) (req : SnapshotRequest)
    (contents : Option (List UInt8)) (nowMs : Int) (transfer : String) :
    SnapshotThread (Except String String) := do
  match contents with
  | none => return .error ("snapshot file not found: " ++ req.file)
  | some bytes =>
      if bytes = [] then return .error ("snapshot file unreadable or empty: " ++ req.file)
      else if kSnapshotMaxFileSize < bytes.length then
        return .error ("snapshot file too large (" ++ toString bytes.length ++ " bytes)")
      else if ← makeDirs transfer then
        match ← writeChunks transfer 0 (splitChunks bytes.length bytes) with
        | some err => return .error err
        | none =>
            match ← saveMeta transfer (stagedMeta library req bytes nowMs transfer) with
            | some err => return .error err
            | none => return .ok transfer
      else return .error "mkdir: Input/output error"

end Staging

section Pump

variable (library : SnapshotLibrary) (sender : SnapshotSender) (nowMs : Int) (transfer : String)

structure PumpResult where
  progressed : Bool
  err : String
  deriving DecidableEq

/-- How a part of the pump ends: it goes on, or the pump returns. -/
inductive PumpPart (α : Type) where
  | goOn (value : α)
  | stop (result : PumpResult)

def buildMetaEnvelope (record : SnapshotMeta) : MetaEnvelope where
  timestamp := nowMs
  manufacturer := sender.manufacturer
  transferId := record.transferId
  filename := record.filename
  totalSize := record.totalSize
  totalChunks := record.totalChunks
  sha256 := record.sha256
  logTime := record.logTime
  ecuCode := if sender.ecuCode = "" then record.ecuCode else sender.ecuCode
  replay := record.replay
  eventId := if record.eventId = "" then none else some record.eventId
  remark := if record.remark = "" then none else some record.remark

def chunkEnvelope (record : SnapshotMeta) (index : Nat) (data : List UInt8) : ChunkEnvelope where
  timestamp := nowMs
  manufacturer := sender.manufacturer
  transferId := record.transferId
  chunkIndex := index
  chunkSha256 := library.sha256Hex data
  data := base64Encode data

/-- The meta message, which is sent once. -/
def pumpMeta (record : SnapshotMeta) (progressed : Bool) :
    SnapshotThread (PumpPart (SnapshotMeta × Bool)) := do
  if record.metaSent then return .goOn (record, progressed)
  else
    let record := { record with replay := decide (5 * 60 * 1000 < nowMs - record.createdMs) }
    if ← publish (.snapshot sender.topic (buildMetaEnvelope sender nowMs record)) then
      let record := { record with metaSent := true }
      match ← saveMeta transfer record with
      | some err => return .stop ⟨progressed, err⟩
      | none => return .goOn (record, true)
    else
      let err ← saveMeta transfer record
      return .stop ⟨progressed, err.getD ""⟩

/-- The loop over the chunks that wait, for so many of them. -/
def pumpChunks : (budget : Nat) → (record : SnapshotMeta) → (progressed : Bool) →
    SnapshotThread (PumpPart (SnapshotMeta × Nat × Bool))
  | 0, record, progressed => return .goOn (record, 0, progressed)
  | budget + 1, record, progressed =>
      match record.nextChunks with
      | [] => return .goOn (record, budget + 1, progressed)
      | index :: later => do
          match ← readChunk transfer index with
          | none => return .stop ⟨progressed, "chunk missing: " ++ chunkName index⟩
          | some data =>
              if ← publish (.chunk sender.topic
                  (chunkEnvelope library sender nowMs record index data)) then
                pumpChunks budget { record with nextChunks := later } true
              else
                let err ← saveMeta transfer record
                return .stop ⟨progressed, err.getD ""⟩

/-- One transfer of a pass. -/
def pumpTransfer (progressed : Bool) : SnapshotThread (PumpPart Bool) := do
  enter transfer
  match ← readMeta transfer with
  | .missing => return .goOn progressed
  | .torn => return .goOn progressed
  | .whole record =>
      if kSnapshotTransferTtlMs < nowMs - record.createdMs then
        let _ ← renameDir transfer .pending .expired
        return .goOn progressed
      else
        match ← pumpMeta sender nowMs transfer record progressed with
        | .stop result => return .stop result
        | .goOn (record, progressed) =>
            match ← pumpChunks library sender nowMs transfer kSnapshotChunksPerPump record
                progressed with
            | .stop result => return .stop result
            | .goOn (record, budget, progressed) =>
                if record.nextChunks = [] then
                  let _ ← renameDir transfer .pending .done
                  if budget = 0 then return .stop ⟨progressed, ""⟩ else return .goOn progressed
                else
                  match ← saveMeta transfer record with
                  | some err => return .stop ⟨progressed, err⟩
                  | none =>
                      if budget = 0 then return .stop ⟨progressed, ""⟩
                      else return .goOn progressed

def pumpTransfers : List String → (progressed : Bool) → SnapshotThread PumpResult
  | [], progressed => return ⟨progressed, ""⟩
  | transfer :: later, progressed => do
      match ← pumpTransfer library sender nowMs transfer progressed with
      | .stop result => return result
      | .goOn progressed => pumpTransfers later progressed

def pump : SnapshotThread PumpResult := do
  let transfers ← listPending
  pumpTransfers library sender nowMs transfers false

end Pump

section Nack

variable (library : SnapshotLibrary) (nowMs : Int)

/-- An accepted one repeats what its log line says. -/
inductive NackResult where
  | accepted (transfer : String) (missing : List Nat)
  | refused (err : List UInt8)
  | threw (error : Json.Error)
  deriving DecidableEq

def NackResult.refuse (err : String) : NackResult := .refused (utf8 err)

/-- `unique` behind `sort`. -/
def unique : List Nat → List Nat
  | [] => []
  | [index] => [index]
  | index :: next :: later =>
      if index = next then unique (next :: later) else index :: unique (next :: later)

/-- The indices, each of which a chunk must have. -/
def missingIndices (total : Nat) : List Value → Option (List Nat)
  | [] => some []
  | .unsigned index :: later =>
      if index.toNat < total then (missingIndices total later).map (index.toNat :: ·) else none
  | _ :: _ => none

/-- The list of a message that asks for chunks, when it is one and not empty. -/
def missingField (nack : Value) : Option (List Value) :=
  match nack.member? "missing" with
  | some (.array (first :: later)) => some (first :: later)
  | _ => none

/-- A finished transfer is moved back when it is asked for. -/
def reactivate (transfer : String) : SnapshotThread (Option String) := do
  if ← isDirectory transfer .pending then return none
  else if ← isDirectory transfer .done then
    if ← renameDir transfer .done .pending then return none
    else return some "nack reactivate: Input/output error"
  else return none

/-- What the checks of the record and the list give. -/
def nackMeta (nack : Value) (record : SnapshotMeta) : Except String (List Nat) :=
  if kSnapshotTransferTtlMs < nowMs - record.createdMs then
    .error "transfer expired, nack ignored"
  else
    match missingField nack with
    | none => .error "nack missing indices"
    | some items =>
        match missingIndices record.totalChunks items with
        | none => .error "nack bad chunk index"
        | some missing => .ok (unique (missing.mergeSort (· ≤ ·)))

def nackTransfer (nack : Value) (transfer : String) : SnapshotThread NackResult := do
  enter transfer
  match ← reactivate transfer with
  | some err => return .refuse err
  | none =>
      if ← isDirectory transfer .pending then
        match ← readMeta transfer with
        | .missing => return .refuse "meta unreadable"
        | .torn => return .refuse "meta parse: unexpected end of input"
        | .whole record =>
            match nackMeta nowMs nack record with
            | .error err => return .refuse err
            | .ok missing =>
                match ← saveMeta transfer { record with nextChunks := missing } with
                | some err => return .refuse err
                | none => return .accepted transfer missing
      else return .refuse ("unknown or finished transfer: " ++ transfer)

def onNack (payload : List UInt8) : SnapshotThread NackResult :=
  match library.parse payload with
  | .error what => return .refused (utf8 "nack parse: " ++ what)
  | .ok nack =>
      match nack.valueOr "transfer_id" "" Value.getString with
      | .error error => return .threw error
      | .ok transfer =>
          if transfer = "" then return .refuse "nack missing transfer_id"
          else nackTransfer nowMs nack transfer

end Nack

end Idsm.Managerd
