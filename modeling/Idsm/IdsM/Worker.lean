import Idsm.Foundation.Execution
import Idsm.IdsM.Manager

/-! The manager's operations and its worker thread. Each step holds the mutex once;
other threads come between them. -/

set_option autoImplicit false

namespace Idsm.IdsM

open Idsm.Protocol (TimestampData)

inductive ReturnType where
  | ok
  | paramPointer
  | paramConfig
  deriving DecidableEq, Repr

/-- Where the worker is in its loop. -/
inductive WorkerPosition where
  | wait
  | drain
  | process
  | expire
  deriving DecidableEq, Repr

/-- `running` is the flag of the loop, and `joinable` says that there is a worker thread. -/
structure Manager where
  running : Bool
  joinable : Bool
  worker : WorkerPosition
  incoming : List OwnedSEv
  batch : List OwnedSEv
  sevs : List SevState
  idsmInstanceId : UInt16
  mainFunctionPeriodMs : UInt32
  blockState : UInt8
  sinks : Sinks
  tally : Tally
  deriving DecidableEq, Repr

/-- The singleton before the first `Init`. -/
def Manager.fresh : Manager :=
  ⟨false, false, .wait, [], [], [], 0, 10, 0, ⟨false, false⟩, .zero⟩

section Init

/-- What `Init` refuses in one event's configuration. -/
def SecurityEventConfig.accepted (periodMs : UInt32) (config : SecurityEventConfig) : Bool :=
  config.externalEventId != 0xFFFF && config.sensorInstanceId ≤ 63 &&
    (ReportingMode.ofRaw config.defaultReportingMode).isSome &&
    config.aggregationIntervalMs % periodMs == 0 &&
    config.eventThreshold.intervalMs % periodMs == 0

def SevState.initial (config : SecurityEventConfig) : SevState where
  config := config
  reportingMode := (ReportingMode.ofRaw config.defaultReportingMode).getD .off
  detectionStatus := .uninitialized
  pendingCount := 0
  nthCounter := config.forwardEveryNth
  aggPending := none
  aggHasContext := false
  aggWindowStartMs := 0
  thrAccumulated := 0
  thrWindowStartMs := 0
  thrWindowOpen := false

def Config.accepted (config : Config) (sevConfigs : List SecurityEventConfig) : Bool :=
  config.idsmInstanceId ≤ 1023 && config.mainFunctionPeriodMs != 0 &&
    sevConfigs.all (SecurityEventConfig.accepted config.mainFunctionPeriodMs)

/-- The configurations `Init` reads; a null pointer is refused when there should be some. -/
def Config.configs (config : Config) : Option (List SecurityEventConfig) :=
  if config.sevCount = 0 then some []
  else config.sevConfigs.map (List.take config.sevCount.toNat)

def Manager.init (config : Option Config) (manager : Manager) : ReturnType × Manager :=
  match config with
  | none => (.paramPointer, manager)
  | some config =>
      match config.configs with
      | none => (.paramPointer, manager)
      | some sevConfigs =>
          if config.accepted sevConfigs then
            (.ok, { manager with
              sevs := sevConfigs.map SevState.initial
              idsmInstanceId := config.idsmInstanceId
              mainFunctionPeriodMs := config.mainFunctionPeriodMs
              blockState := 0
              tally := .zero
              running := true
              joinable := true
              worker := .wait })
          else (.paramConfig, manager)

end Init

namespace Manager

variable (manager : Manager)

/-- `DeInit` behind the join. -/
def clear : Manager :=
  { manager with
    joinable := false, sevs := [], sinks := ⟨false, false⟩, tally := .zero
    mainFunctionPeriodMs := 10, incoming := [] }

def setSev (sevId : UInt16) (state : SevState) : Manager :=
  { manager with sevs := manager.sevs.set sevId.toNat state }

/-- The part of `ReportSecurityEvent` under the mutex. -/
def report (sevId : UInt16) (contextData : List UInt8) (contextVersion count : UInt16)
    (timestamp : Option TimestampData) : Manager :=
  match manager.sevs[sevId.toNat]? with
  | none => manager
  | some state =>
      let owned : OwnedSEv :=
        ⟨sevId, contextData, contextVersion, if count = 0 then 1 else count, timestamp⟩
      let stats := manager.tally.stats
      { manager.setSev sevId { state with pendingCount := state.pendingCount + 1 } with
        incoming := manager.incoming ++ [owned]
        tally := { manager.tally with
          stats := { stats with eventsReported := stats.eventsReported + 1 } } }

def setReportingMode (sevId : UInt16) (mode : Nat) : ReturnType × Manager :=
  match ReportingMode.ofRaw mode, manager.sevs[sevId.toNat]? with
  | some mode, some state => (.ok, manager.setSev sevId { state with reportingMode := mode })
  | _, _ => (.paramConfig, manager)

def resetDetectionStatus (sevId : UInt16) : ReturnType × Manager :=
  match manager.sevs[sevId.toNat]? with
  | none => (.paramConfig, manager)
  | some state => (.ok, manager.setSev sevId { state with detectionStatus := .ok })

def flushEvents (sevId : UInt16) (nowMs : UInt32) : ReturnType × Manager :=
  match manager.sevs[sevId.toNat]? with
  | none => (.paramConfig, manager)
  | some state =>
      match state.aggPending with
      | none => (.ok, manager)
      | some staged =>
          let (state, tally) := release manager.sinks state staged nowMs manager.tally
          (.ok, { manager.setSev sevId state with tally })

def processEvent (clock : Clock) (sev : OwnedSEv) : Manager :=
  match manager.sevs[sev.securityEventId.toNat]? with
  | none => manager
  | some state =>
      let (state, tally) := processSev manager.sinks manager.idsmInstanceId manager.blockState clock
        sev state manager.tally
      { manager.setSev sev.securityEventId state with tally }

def expire (nowMs : UInt32) : UInt32 × Manager :=
  let (sevs, tally, nextDeadline) := expireWindows manager.sinks nowMs manager.sevs manager.tally 0
  (nextDeadline, { manager with sevs, tally })

/-- The pending counter of an event that leaves the queue. -/
def leaveQueue (sevs : List SevState) (sev : OwnedSEv) : List SevState :=
  match sevs[sev.securityEventId.toNat]? with
  | none => sevs
  | some state =>
      if 0 < state.pendingCount then
        sevs.set sev.securityEventId.toNat { state with pendingCount := state.pendingCount - 1 }
      else sevs

/-- The queue becomes the local batch. -/
def drain : Manager :=
  { manager with
    sevs := manager.incoming.foldl leaveQueue manager.sevs
    batch := manager.incoming
    incoming := []
    worker := .process }

/-- The worker has left its loop, or leaves it where it stands. -/
def finished : Bool :=
  manager.worker == .wait || (manager.worker == .drain && manager.incoming.isEmpty)

end Manager

/-- `checked` is what the caller read of the running flag before it took the mutex. -/
inductive ManagerEvent where
  | init (config : Option Config)
  | stop
  | join
  | report (checked : Bool) (sevId : UInt16) (contextData : List UInt8)
      (contextVersion count : UInt16) (timestamp : Option TimestampData)
  | setReportingMode (sevId : UInt16) (mode : Nat)
  | blockStateChanged (state : UInt8)
  | resetDetectionStatus (sevId : UInt16)
  | setDemReportCallback (present : Bool)
  | registerIdsrSink (present : Bool)
  | flushEvents (sevId : UInt16) (nowMs : UInt32)
  | wait (nowMs : UInt32)
  | drain
  | process (clock : Clock)
  | expire (nowMs : UInt32)

/-- One step of a caller or of the worker. `Init` beside a joinable worker thread ends the
process and has no step. -/
def managerStep (manager : Manager) : ManagerEvent → Option Manager
  | .init config =>
      let (result, later) := manager.init config
      if result = .ok ∧ manager.joinable then none else some later
  | .stop => some { manager with running := false }
  | .join =>
      if manager.running = false ∧ (manager.joinable → manager.finished) then some manager.clear
      else none
  | .report checked sevId contextData contextVersion count timestamp =>
      if checked then some (manager.report sevId contextData contextVersion count timestamp)
      else some manager
  | .setReportingMode sevId mode => some (manager.setReportingMode sevId mode).2
  | .blockStateChanged state => some { manager with blockState := state }
  | .resetDetectionStatus sevId => some (manager.resetDetectionStatus sevId).2
  | .setDemReportCallback present =>
      some { manager with sinks := { manager.sinks with dem := present } }
  | .registerIdsrSink present =>
      some { manager with sinks := { manager.sinks with idsr := present } }
  | .flushEvents sevId nowMs => some (manager.flushEvents sevId nowMs).2
  | .wait nowMs =>
      if manager.joinable ∧ manager.worker = .wait then
        let waiting := if manager.incoming = [] then (manager.expire nowMs).2 else manager
        some { waiting with worker := .drain }
      else none
  | .drain => if manager.joinable ∧ manager.worker = .drain then some manager.drain else none
  | .process clock =>
      if manager.joinable ∧ manager.worker = .process then
        match manager.batch with
        | [] => some { manager with worker := .expire }
        | sev :: rest => some { manager.processEvent clock sev with batch := rest }
      else none
  | .expire nowMs =>
      if manager.joinable ∧ manager.worker = .expire then
        some { (manager.expire nowMs).2 with worker := .wait }
      else none

end Idsm.IdsM
