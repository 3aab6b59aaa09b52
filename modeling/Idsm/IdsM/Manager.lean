import Idsm.IdsRm.JsonPayload

/-! The intrusion detection manager: reported events pass the reporting mode and the
filters Block State, Forward Every Nth, Aggregation and Threshold, and reach the sinks. -/

set_option autoImplicit false

namespace Idsm.IdsM

open Idsm.Protocol (EventSeverity TimestampData)
open Idsm.IdsRm (OwnedQSEv)

structure OwnedSEv where
  securityEventId : UInt16
  contextData : List UInt8
  contextDataVersion : UInt16
  count : UInt16
  timestamp : Option TimestampData
  deriving DecidableEq, Repr

inductive ReportingMode where
  | off
  | brief
  | detailed
  | briefBypassingFilters
  | detailedBypassingFilters
  deriving DecidableEq, Repr

/-- The enumeration's value; larger ones are refused. -/
def ReportingMode.ofRaw : Nat → Option ReportingMode
  | 0 => some .off
  | 1 => some .brief
  | 2 => some .detailed
  | 3 => some .briefBypassingFilters
  | 4 => some .detailedBypassingFilters
  | _ => none

inductive DetectionStatus where
  | ok
  | violation
  | uninitialized
  deriving DecidableEq, Repr

structure EventThreshold where
  threshold : UInt16
  intervalMs : UInt32
  deriving DecidableEq, Repr

/-- A filter with value zero, or without blocked states, is disabled. -/
structure SecurityEventConfig where
  externalEventId : UInt16
  sensorInstanceId : UInt8
  severity : EventSeverity
  defaultReportingMode : Nat
  blockState : Option (List UInt8)
  forwardEveryNth : UInt16
  aggregationIntervalMs : UInt32
  eventThreshold : EventThreshold
  sinkToDem : Bool
  sinkToIdsr : Bool
  deriving DecidableEq, Repr

structure Config where
  idsmInstanceId : UInt16
  mainFunctionPeriodMs : UInt32
  sevCount : UInt16
  sevConfigs : Option (List SecurityEventConfig)
  eventBufferSize : UInt32
  deriving DecidableEq, Repr

/-- The aggregate of an open window. `merged` counts the events after its first one; no
operation reads it. -/
structure StagedQSEv where
  qsev : OwnedQSEv
  merged : Nat
  deriving DecidableEq, Repr

structure SevState where
  config : SecurityEventConfig
  reportingMode : ReportingMode
  detectionStatus : DetectionStatus
  pendingCount : UInt32
  nthCounter : UInt16
  aggPending : Option StagedQSEv
  aggHasContext : Bool
  aggWindowStartMs : UInt32
  thrAccumulated : UInt32
  thrWindowStartMs : UInt32
  thrWindowOpen : Bool
  deriving DecidableEq, Repr

/-- The counters, without an upper bound. -/
structure Stats where
  eventsReported : Nat
  droppedReportingOff : Nat
  droppedBlockState : Nat
  droppedSampling : Nat
  droppedThreshold : Nat
  eventsQualified : Nat
  sentToDem : Nat
  sentToIdsr : Nat
  deriving DecidableEq, Repr

def Stats.zero : Stats := ⟨0, 0, 0, 0, 0, 0, 0, 0⟩

/-- Which sink callbacks are registered. -/
structure Sinks where
  dem : Bool
  idsr : Bool
  deriving DecidableEq, Repr

/-- The counters and what the sinks received. `absorbed` and `vanished` count the events of
released aggregates: those merged behind the first one, and aggregates that a threshold
dropped on release. No operation reads the two. -/
structure Tally where
  stats : Stats
  dem : List OwnedQSEv
  idsr : List OwnedQSEv
  absorbed : Nat
  vanished : Nat
  deriving DecidableEq, Repr

def Tally.zero : Tally := ⟨.zero, [], [], 0, 0⟩

section Filters

def isBlockedByState (blockState : UInt8) (config : SecurityEventConfig) : Bool :=
  match config.blockState with
  | none => false
  | some blockedStates => blockedStates.contains blockState

/-- The counter starts at `n`, so the first event passes. -/
def passForwardEveryNth (sev : SevState) (count : UInt16) : Bool × SevState :=
  let n := sev.config.forwardEveryNth
  if n = 0 then (true, sev)
  else
    let accumulated := sev.nthCounter.toUInt32 + count.toUInt32
    if n.toUInt32 ≤ accumulated then (true, { sev with nthCounter := 0 })
    else (false, { sev with nthCounter := accumulated.toUInt16 })

/-- The sum of two counts, or the largest count. -/
def mergedCount (pending count : UInt16) : UInt16 :=
  let merged := pending.toUInt32 + count.toUInt32
  if 0xFFFF < merged then 0xFFFF else merged.toUInt16

/-- The first event opens the window and the later ones add their counts to it. -/
def passAggregation (sev : SevState) (qsev : OwnedQSEv) (nowMs : UInt32) : Bool × SevState :=
  if sev.config.aggregationIntervalMs = 0 then (true, sev)
  else
    match sev.aggPending with
    | none =>
        (false, { sev with
          aggPending := some ⟨qsev, 0⟩
          aggHasContext := !qsev.contextData.isEmpty
          aggWindowStartMs := nowMs })
    | some staged =>
        (false, { sev with
          aggPending := some ⟨{ staged.qsev with
            count := mergedCount staged.qsev.count qsev.count }, staged.merged + 1⟩ })

def passThreshold (sev : SevState) (count : UInt16) (nowMs : UInt32) : Bool × SevState :=
  let threshold := sev.config.eventThreshold.threshold
  if threshold = 0 then (true, sev)
  else
    let sev :=
      if sev.thrWindowOpen then sev
      else { sev with thrWindowOpen := true, thrWindowStartMs := nowMs, thrAccumulated := 0 }
    let sev := { sev with thrAccumulated := sev.thrAccumulated + count.toUInt32 }
    (threshold.toUInt32 ≤ sev.thrAccumulated, sev)

end Filters

section Qualification

variable (sinks : Sinks)

def dispatchQsev (config : SecurityEventConfig) (qsev : OwnedQSEv) (tally : Tally) : Tally :=
  let tally :=
    if config.sinkToDem && sinks.dem then
      { tally with
        stats := { tally.stats with sentToDem := tally.stats.sentToDem + 1 }
        dem := tally.dem ++ [qsev] }
    else tally
  if config.sinkToIdsr && sinks.idsr then
    { tally with
      stats := { tally.stats with sentToIdsr := tally.stats.sentToIdsr + 1 }
      idsr := tally.idsr ++ [qsev] }
  else tally

def qualify (config : SecurityEventConfig) (qsev : OwnedQSEv) (tally : Tally) : Tally :=
  dispatchQsev sinks config qsev
    { tally with stats := { tally.stats with eventsQualified := tally.stats.eventsQualified + 1 } }

/-- An aggregate leaves its window for the threshold and the sinks. One that the threshold
drops is not counted. -/
def release (sev : SevState) (staged : StagedQSEv) (nowMs : UInt32) (tally : Tally) :
    SevState × Tally :=
  let sev := { sev with aggPending := none, aggHasContext := false }
  let tally := { tally with absorbed := tally.absorbed + staged.merged }
  let (passes, sev) := passThreshold sev staged.qsev.count nowMs
  if passes then (sev, qualify sinks sev.config staged.qsev tally)
  else (sev, { tally with vanished := tally.vanished + 1 })

/-- An earlier deadline replaces the one found so far; zero stands for none. -/
def earlier (nextDeadline deadline : UInt32) : UInt32 :=
  if nextDeadline = 0 ∨ deadline < nextDeadline then deadline else nextDeadline

/-- The threshold window of one event, past the aggregation window. -/
def expireThreshold (nowMs : UInt32) (sev : SevState) (nextDeadline : UInt32) :
    SevState × UInt32 :=
  if sev.thrWindowOpen then
    let deadline := sev.thrWindowStartMs + sev.config.eventThreshold.intervalMs
    if deadline ≤ nowMs then ({ sev with thrWindowOpen := false, thrAccumulated := 0 }, nextDeadline)
    else (sev, earlier nextDeadline deadline)
  else (sev, nextDeadline)

/-- The aggregate whose window is due. -/
def dueAggregate (nowMs : UInt32) (sev : SevState) : Option StagedQSEv :=
  if sev.config.aggregationIntervalMs ≠ 0 ∧
      sev.aggWindowStartMs + sev.config.aggregationIntervalMs ≤ nowMs then sev.aggPending
  else none

/-- The deadline of an aggregation window that is not due. -/
def aggregationDeadline (sev : SevState) (nextDeadline : UInt32) : UInt32 :=
  if sev.aggPending.isSome ∧ sev.config.aggregationIntervalMs ≠ 0 then
    earlier nextDeadline (sev.aggWindowStartMs + sev.config.aggregationIntervalMs)
  else nextDeadline

/-- The body of the loop over the events' states. -/
def expireWindow (nowMs : UInt32) (sev : SevState) (tally : Tally) (nextDeadline : UInt32) :
    SevState × Tally × UInt32 :=
  match dueAggregate nowMs sev with
  | some staged =>
      let (sev, tally) := release sinks sev staged nowMs tally
      (sev, tally, nextDeadline)
  | none =>
      let (sev, nextDeadline) := expireThreshold nowMs sev (aggregationDeadline sev nextDeadline)
      (sev, tally, nextDeadline)

/-- All windows, and the earliest deadline that remains. -/
def expireWindows (nowMs : UInt32) :
    List SevState → Tally → UInt32 → List SevState × Tally × UInt32
  | [], tally, nextDeadline => ([], tally, nextDeadline)
  | sev :: rest, tally, nextDeadline =>
      let (sev, tally, nextDeadline) := expireWindow sinks nowMs sev tally nextDeadline
      let (rest, tally, nextDeadline) := expireWindows nowMs rest tally nextDeadline
      (sev :: rest, tally, nextDeadline)

/-- The clock values that the processing of one event reads: milliseconds at its start and
where the aggregation stages it, and the wall clock. -/
structure Clock where
  nowMs : UInt32
  stagedMs : UInt32
  internal : TimestampData
  deriving DecidableEq, Repr

def ReportingMode.isBrief (mode : ReportingMode) : Bool :=
  mode == .brief || mode == .briefBypassingFilters

def ReportingMode.bypasses (mode : ReportingMode) : Bool :=
  mode == .briefBypassingFilters || mode == .detailedBypassingFilters

def buildQsev (instanceId : UInt16) (state : SevState) (sev : OwnedSEv) (internal : TimestampData) :
    OwnedQSEv where
  idsmInstanceId := instanceId
  externalEventId := state.config.externalEventId
  sensorInstanceId := state.config.sensorInstanceId
  severity := state.config.severity
  count := sev.count
  hasTimestamp := true
  timestamp := sev.timestamp.getD internal
  contextDataVersion := sev.contextDataVersion
  contextData := if state.reportingMode.isBrief then [] else sev.contextData

/-- The filters in their order; each drops the event or hands it on. -/
def filterChain (blockState : UInt8) (state : SevState) (qsev : OwnedQSEv) (clock : Clock)
    (tally : Tally) : SevState × Tally :=
  let stats := tally.stats
  if isBlockedByState blockState state.config then
    (state, { tally with stats := { stats with droppedBlockState := stats.droppedBlockState + 1 } })
  else
    match passForwardEveryNth state qsev.count with
    | (false, state) =>
        (state, { tally with stats := { stats with droppedSampling := stats.droppedSampling + 1 } })
    | (true, state) =>
        match passAggregation state qsev clock.stagedMs with
        | (false, state) => (state, tally)
        | (true, state) =>
            match passThreshold state qsev.count clock.nowMs with
            | (false, state) =>
                (state, { tally with
                  stats := { stats with droppedThreshold := stats.droppedThreshold + 1 } })
            | (true, state) => (state, qualify sinks state.config qsev tally)

/-- `processEvent` with the state its event's identifier names. -/
def processSev (instanceId : UInt16) (blockState : UInt8) (clock : Clock) (sev : OwnedSEv)
    (state : SevState) (tally : Tally) : SevState × Tally :=
  if state.reportingMode = .off then
    (state, { tally with stats := { tally.stats with
      droppedReportingOff := tally.stats.droppedReportingOff + 1 } })
  else
    let state := { state with detectionStatus := .violation }
    let qsev := buildQsev instanceId state sev clock.internal
    if state.reportingMode.bypasses then (state, qualify sinks state.config qsev tally)
    else filterChain sinks blockState state qsev clock tally

end Qualification

end Idsm.IdsM
