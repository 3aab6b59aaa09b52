import Idsm.Foundation.Execution
import Idsm.IdsRm.JsonPayload

/-! The reporting manager: its callback takes qualified events into two bounded queues, one
worker posts them over HTTP, and a sink thread forwards them to a local socket. Each step is
one section under a mutex, or one access to an atomic flag. -/

set_option autoImplicit false

namespace Idsm.IdsRm

inductive ReturnType where
  | ok
  | notOk
  | notInit
  deriving DecidableEq, Repr

/-- The events that the HTTP queue holds, `IDSRM_DEFAULT_QUEUE_DEPTH`. -/
def queueDepth : Nat := 128

def sinkDepth : Nat := 512

def maxRetryCount : UInt8 := 10

/-- A C string read with `strnlen`. -/
def cText (bytes : List UInt8) (most : Nat) : List UInt8 :=
  (bytes.take most).takeWhile (· ≠ 0)

structure Config where
  socUrl : List UInt8
  retryCount : UInt8
  enabled : Bool
  deriving DecidableEq, Repr

/-- The counters, without an upper bound. -/
structure Stats where
  eventsReceived : Nat
  eventsDropped : Nat
  eventsPosted : Nat
  eventsFailed : Nat
  httpRetries : Nat
  deriving DecidableEq, Repr

def Stats.zero : Stats := ⟨0, 0, 0, 0, 0⟩

/-- Where a call of `OnQsev` is: past the enabled check, past the HTTP queue, past a look at
the sink's flag that was set, or before its last section. -/
inductive CallPosition where
  | entered
  | enqueued
  | teeing
  | counting
  deriving DecidableEq, Repr

structure Call where
  qsev : OwnedQSEv
  position : CallPosition
  deriving DecidableEq, Repr

/-- Where the HTTP worker is: at the head of its loop, at the wait, before the next event of
its batch, in `postWithRetry`, before and in the drain behind the loop, or at its end. -/
inductive WorkerPosition where
  | head
  | waiting
  | batch (rest : List OwnedQSEv)
  | posting (qsev : OwnedQSEv) (attempt : Nat) (rest : List OwnedQSEv) (draining : Bool)
  | drain
  | remaining (rest : List OwnedQSEv)
  | finished
  deriving DecidableEq, Repr

/-- Where a sink loop is: at its wait, or with an event it took. -/
inductive SinkPosition where
  | waiting
  | holding (qsev : OwnedQSEv)
  deriving DecidableEq, Repr

/-- What a `DeInit` does next. -/
inductive DeInitStep where
  | stopWorker
  | joinWorker
  | stopSink
  | joinSink
  | finish
  deriving DecidableEq, Repr

/-- `sinkLoops` are the sink loops that run, and `sinkJoinable` says that the sink's thread
object stands for one that was not joined. `curl` says that the worker has a handle, and
`attempts` counts the requests made with it; no operation reads the count. -/
structure Manager where
  initialized : Bool
  enabled : Bool
  workerRunning : Bool
  sinkRunning : Bool
  socUrl : List UInt8
  retryCount : UInt8
  sinkPath : List UInt8
  eventQueue : List OwnedQSEv
  sinkQueue : List OwnedQSEv
  calls : List Call
  worker : WorkerPosition
  sinkLoops : List SinkPosition
  sinkJoinable : Bool
  sinkConnected : Bool
  deInit : Option DeInitStep
  curl : Bool
  stats : Stats
  attempts : Nat
  deriving DecidableEq, Repr

/-- The singleton before the first call. -/
def Manager.fresh : Manager where
  initialized := false
  enabled := false
  workerRunning := false
  sinkRunning := false
  socUrl := []
  retryCount := 3
  sinkPath := []
  eventQueue := []
  sinkQueue := []
  calls := []
  worker := .finished
  sinkLoops := []
  sinkJoinable := false
  sinkConnected := false
  deInit := none
  curl := false
  stats := .zero
  attempts := 0

namespace Manager

variable (manager : Manager)

section Lifecycle

/-- The sink's flag is set and its thread object gets a new thread. -/
def startSink : Manager :=
  { manager with
    sinkRunning := true
    sinkLoops := manager.sinkLoops ++ [.waiting]
    sinkJoinable := true }

/-- `Init` of a module that is not initialised; `curl` says whether the worker gets a handle. -/
def start (config : Config) (curl : Bool) : Manager :=
  let started : Manager :=
    { manager with
      initialized := true
      enabled := config.enabled
      workerRunning := true
      socUrl := cText config.socUrl 255
      retryCount := if config.retryCount ≤ maxRetryCount then config.retryCount else maxRetryCount
      worker := .head
      curl
      stats := .zero }
  if manager.sinkPath = [] then started else started.startSink

def init (config : Config) (curl : Bool) : ReturnType × Manager :=
  if manager.initialized then (.notOk, manager) else (.ok, manager.start config curl)

/-- `SetLocalSink`; a null pointer stands for no path. -/
def setLocalSink (path : Option (List UInt8)) : Manager :=
  let sinkPath := cText (path.getD []) 107
  let configured := { manager with sinkPath }
  if manager.initialized = false then configured
  else if sinkPath ≠ [] ∧ manager.sinkRunning = false then configured.startSink
  else if sinkPath = [] ∧ manager.sinkRunning = true then { configured with sinkRunning := false }
  else configured

/-- The thread object of the sink gets a new thread in this call. -/
def startsSink (path : Option (List UInt8)) : Bool :=
  manager.initialized && cText (path.getD []) 107 != [] && !manager.sinkRunning

/-- The next part of a `DeInit`. The worker and the sink loops have to end before their joins
do. -/
def deInitNext : Option Manager :=
  match manager.deInit with
  | none => none
  | some .stopWorker =>
      some { manager with workerRunning := false, deInit := some .joinWorker }
  | some .joinWorker =>
      if manager.worker = .finished then some { manager with deInit := some .stopSink } else none
  | some .stopSink => some { manager with sinkRunning := false, deInit := some .joinSink }
  | some .joinSink =>
      if manager.sinkJoinable ∧ manager.sinkLoops ≠ [] then none
      else
        some { manager with
          sinkJoinable := false, sinkConnected := false, deInit := some .finish }
  | some .finish =>
      some { manager with initialized := false, enabled := false, deInit := none }

end Lifecycle

section Callback

def drop : Manager :=
  { manager with stats :=
      { manager.stats with eventsDropped := manager.stats.eventsDropped + 1 } }

def setCall (index : Nat) (call : Call) : Manager :=
  { manager with calls := manager.calls.set index call }

def endCall (index : Nat) : Manager := { manager with calls := manager.calls.eraseIdx index }

/-- The enabled check. -/
def enter (qsev : OwnedQSEv) : Manager :=
  if manager.enabled then { manager with calls := manager.calls ++ [⟨qsev, .entered⟩] }
  else manager.drop

/-- A full queue ends the call. -/
def enqueue (index : Nat) (qsev : OwnedQSEv) : Manager :=
  if queueDepth ≤ manager.eventQueue.length then (manager.endCall index).drop
  else
    { manager.setCall index ⟨qsev, .enqueued⟩ with eventQueue := manager.eventQueue ++ [qsev] }

/-- The look at the sink's flag. -/
def readSink (index : Nat) (qsev : OwnedQSEv) : Manager :=
  manager.setCall index ⟨qsev, if manager.sinkRunning then .teeing else .counting⟩

def tee (index : Nat) (qsev : OwnedQSEv) : Manager :=
  let later := manager.setCall index ⟨qsev, .counting⟩
  if manager.sinkQueue.length < sinkDepth then
    { later with sinkQueue := manager.sinkQueue ++ [qsev] }
  else later.drop

def count (index : Nat) : Manager :=
  { manager.endCall index with stats :=
      { manager.stats with eventsReceived := manager.stats.eventsReceived + 1 } }

/-- The next section of a call. -/
def callNext (index : Nat) : Option Manager :=
  match manager.calls[index]? with
  | none => none
  | some ⟨qsev, .entered⟩ => some (manager.enqueue index qsev)
  | some ⟨qsev, .enqueued⟩ => some (manager.readSink index qsev)
  | some ⟨qsev, .teeing⟩ => some (manager.tee index qsev)
  | some ⟨_, .counting⟩ => some (manager.count index)

end Callback

section Worker

def posted : Manager :=
  { manager with stats := { manager.stats with eventsPosted := manager.stats.eventsPosted + 1 } }

def failed : Manager :=
  { manager with stats := { manager.stats with eventsFailed := manager.stats.eventsFailed + 1 } }

/-- Behind `postWithRetry` in the loop and in the drain. -/
def behindPost (rest : List OwnedQSEv) (draining : Bool) : WorkerPosition :=
  if draining then .remaining rest else .batch rest

/-- One round of `postWithRetry`; without a handle no request is made. -/
def post (success : Bool) (qsev : OwnedQSEv) (attempt : Nat) (rest : List OwnedQSEv)
    (draining : Bool) : Manager :=
  let asked := { manager with attempts := manager.attempts + if manager.curl then 1 else 0 }
  if manager.curl ∧ success then { asked.posted with worker := behindPost rest draining }
  else
    let retried :=
      { asked with stats := { asked.stats with httpRetries := asked.stats.httpRetries + 1 } }
    if attempt < manager.retryCount.toNat then
      { retried with worker := .posting qsev (attempt + 1) rest draining }
    else { retried.failed with worker := behindPost rest draining }

/-- The next section of the worker; `success` is the answer to a request, if it makes one. -/
def workerNext (success : Bool) : Option Manager :=
  match manager.worker with
  | .head => some { manager with worker := if manager.workerRunning then .waiting else .drain }
  | .waiting =>
      if manager.eventQueue = [] then
        if manager.workerRunning then none else some { manager with worker := .drain }
      else some { manager with worker := .batch manager.eventQueue, eventQueue := [] }
  | .batch [] => some { manager with worker := .head }
  | .batch (qsev :: rest) =>
      if manager.socUrl = [] then
        let counted := if manager.sinkRunning then manager.posted else manager.failed
        some { counted with worker := .batch rest }
      else some { manager with worker := .posting qsev 0 rest false }
  | .posting qsev attempt rest draining =>
      some (manager.post success qsev attempt rest draining)
  | .drain => some { manager with worker := .remaining manager.eventQueue, eventQueue := [] }
  | .remaining [] => some { manager with worker := .finished }
  | .remaining (qsev :: rest) => some { manager with worker := .posting qsev 0 rest true }
  | .finished => none

end Worker

section Sink

/-- An event that reaches the sink's peer, or is dropped. A loop without a connection makes
one first, when there is a path. -/
def deliver (connects writes : Bool) : Manager :=
  if manager.sinkConnected ∨ (connects ∧ manager.sinkPath ≠ []) then
    if writes then { manager with sinkConnected := true }
    else { manager.drop with sinkConnected := false }
  else manager.drop

/-- The next section of a sink loop: a loop at its wait takes an event, and ends when there is
none and its flag is gone. -/
def sinkNext (index : Nat) (connects writes : Bool) : Option Manager :=
  match manager.sinkLoops[index]? with
  | none => none
  | some .waiting =>
      match manager.sinkQueue with
      | qsev :: rest =>
          some { manager with
            sinkQueue := rest, sinkLoops := manager.sinkLoops.set index (.holding qsev) }
      | [] =>
          if manager.sinkRunning then none
          else some { manager with sinkLoops := manager.sinkLoops.eraseIdx index }
  | some (.holding _) =>
      let later := manager.deliver connects writes
      some { later with sinkLoops := manager.sinkLoops.set index .waiting }

end Sink

end Manager

inductive ManagerEvent where
  | init (config : Config) (curl : Bool)
  | deInit
  | deInitNext
  | setEnabled (enabled : Bool)
  | setSocUrl (url : List UInt8)
  | setLocalSink (path : Option (List UInt8))
  | resetStats
  | enter (qsev : OwnedQSEv)
  | callNext (index : Nat)
  | workerNext (success : Bool)
  | sinkNext (index : Nat) (connects writes : Bool)
  deriving DecidableEq, Repr

/-- One step of a caller or of a thread. `Init`, `SetLocalSink` and `DeInit` come one after
the other; `OnQsev` may come at any time. A new thread for a thread object that is joinable
ends the process and has no step. -/
def managerStep (manager : Manager) : ManagerEvent → Option Manager
  | .init config curl =>
      if manager.deInit.isSome then none
      else if manager.initialized = false ∧ manager.sinkPath ≠ [] ∧ manager.sinkJoinable then none
      else some (manager.init config curl).2
  | .deInit =>
      if manager.deInit.isSome then none
      else if manager.initialized then some { manager with deInit := some .stopWorker }
      else some manager
  | .deInitNext => manager.deInitNext
  | .setEnabled enabled => some (if manager.initialized then { manager with enabled } else manager)
  | .setSocUrl url =>
      some (if manager.initialized then { manager with socUrl := cText url 255 } else manager)
  | .setLocalSink path =>
      if manager.deInit.isSome then none
      else if manager.startsSink path ∧ manager.sinkJoinable then none
      else some (manager.setLocalSink path)
  | .resetStats => some { manager with stats := .zero }
  | .enter qsev => some (manager.enter qsev)
  | .callNext index => manager.callNext index
  | .workerNext success => manager.workerNext success
  | .sinkNext index connects writes => manager.sinkNext index connects writes

end Idsm.IdsRm
