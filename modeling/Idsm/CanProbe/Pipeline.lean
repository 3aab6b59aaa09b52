import Idsm.CanProbe.Detectors
import Idsm.CanProbe.IdList
import Idsm.Foundation.Reactors

/-! The CAN pipeline, from a SocketCAN record to the alerts: `frame.cpp`, the stateless checks,
the whitelist and the cycle check of `detectors.cpp`, and `pipeline.cpp`. Frames come in the
order of their times. -/

set_option autoImplicit false

namespace Idsm.CanProbe

open Idsm.Foundation

/-! Records. -/

def canEffFlag : UInt32 := 0x80000000
def canRtrFlag : UInt32 := 0x40000000
def canErrFlag : UInt32 := 0x20000000
def canIdEff : UInt32 := 0x1FFFFFFF
def canIdSff : UInt32 := 0x000007FF

def canFrameLen : Nat := 16
def canfdFrameLen : Nat := 72

/-- The first four bytes as the capture host stored them, the lowest first. -/
def rawId (p : List UInt8) : UInt32 :=
  (p.getD 0 0).toUInt32 ||| (p.getD 1 0).toUInt32 <<< 8 ||| (p.getD 2 0).toUInt32 <<< 16 |||
    (p.getD 3 0).toUInt32 <<< 24

/-- A length that the record does not hold is kept in `dlc` and cut in `len`. -/
def parseCanFrame (p : List UInt8) : Option CanFrame :=
  if p.length = canFrameLen ∨ p.length = canfdFrameLen then
    let eff := rawId p &&& canEffFlag != 0
    let fd := p.length != canFrameLen
    let dlc := p.getD 4 0
    let most := if fd then 64 else 8
    some
      { canId := rawId p &&& if eff then canIdEff else canIdSff
        eff
        rtr := rawId p &&& canRtrFlag != 0
        err := rawId p &&& canErrFlag != 0
        fd
        dlc
        len := if dlc ≤ most then dlc else most
        data := .ofFn fun i => p.getD (8 + i) 0 }
  else none

def isDiagRequestId (id : UInt32) : Bool := id == 0x7DF || (0x7E0 ≤ id && id ≤ 0x7E7)

def isDiagResponseId (id : UInt32) : Bool := 0x7E8 ≤ id && id ≤ 0x7EF

/-! Alerts. -/

inductive AlertType where
  | unknownId
  | idFlood
  | busFlood
  | errorBurst
  | dlcAnomaly
  | remoteFrame
  | udsSecAccess
  | udsSvcScan
  | diagFlood
  | cycleAnomaly
  deriving DecidableEq, Repr

def AlertType.code : AlertType → UInt8
  | .unknownId => 1
  | .idFlood => 2
  | .busFlood => 3
  | .errorBurst => 4
  | .dlcAnomaly => 5
  | .remoteFrame => 6
  | .udsSecAccess => 7
  | .udsSvcScan => 8
  | .diagFlood => 9
  | .cycleAnomaly => 10

/-- An alert of any detector of the pipeline. -/
structure ProbeAlert where
  detectorType : AlertType
  canId : UInt32
  eff : Bool
  rtr : Bool
  fd : Bool
  err : Bool
  count : UInt32
  aux : UInt32
  deriving DecidableEq, Repr

def frameAlert (detectorType : AlertType) (f : CanFrame) (aux : UInt32) : ProbeAlert :=
  ⟨detectorType, f.canId, f.eff, f.rtr, f.fd, f.err, 1, aux⟩

def DetectorType.alertType : DetectorType → AlertType
  | .idFlood => .idFlood
  | .busFlood => .busFlood
  | .errorBurst => .errorBurst
  | .udsSecAccess => .udsSecAccess
  | .udsSvcScan => .udsSvcScan
  | .diagFlood => .diagFlood

/-- What the callback gets of a windowed detector. -/
def CanAlert.probe (a : CanAlert) : ProbeAlert :=
  ⟨a.detectorType.alertType, a.canId, a.eff, a.rtr, a.fd, a.err, a.count, a.aux⟩

/-! The checks that keep no window. -/

def dlcAnomalyClassicGt8 : UInt32 := 1
def dlcAnomalyFdLen : UInt32 := 2

def checkDlcAnomaly (f : CanFrame) : Option ProbeAlert :=
  if f.err || f.rtr then none
  else if !f.fd && 8 < f.dlc then some (frameAlert .dlcAnomaly f dlcAnomalyClassicGt8)
  else if f.fd && 64 < f.dlc then some (frameAlert .dlcAnomaly f dlcAnomalyFdLen)
  else none

def checkRemoteFrame (f : CanFrame) : Option ProbeAlert :=
  if !f.rtr || f.err then none else some (frameAlert .remoteFrame f 0)

/-- The whitelist is enabled by its first entry. -/
def UnknownId.enabled (known : List UInt32) : Bool := !known.isEmpty

def UnknownId.feed (known : List UInt32) (f : CanFrame) : Option ProbeAlert :=
  if f.canId ∈ known then none else some (frameAlert .unknownId f 0)

structure CycleAnomalyConfig where
  cooldownMs : UInt32 := 60000

def IdState.feed (cfg : CycleAnomalyConfig) (st : IdState) (f : CanFrame) (nowMs : UInt64) :
    IdState × Option ProbeAlert :=
  let interval := nowMs - st.lastMs
  if st.seen ∧ st.lastMs ≤ nowMs ∧ interval < st.minMs.toUInt64 ∧ st.mutedUntil ≤ nowMs then
    (⟨st.minMs, true, nowMs, nowMs + cfg.cooldownMs.toUInt64⟩,
      some (frameAlert .cycleAnomaly f interval.toUInt32))
  else (⟨st.minMs, true, nowMs, st.mutedUntil⟩, none)

/-- An identifier without an entry is not checked. -/
def CycleAnomaly.feed (cfg : CycleAnomalyConfig) (ids : List (UInt32 × IdState)) (f : CanFrame)
    (nowMs : UInt64) : List (UInt32 × IdState) × Option ProbeAlert :=
  match ids.lookup f.canId with
  | none => (ids, none)
  | some st =>
      let (st, alert) := st.feed cfg f nowMs
      (ids.map fun (id, state) => (id, if id = f.canId then st else state), alert)

/-! The pipeline. -/

structure PipelineConfig where
  idFlood : IdFloodConfig := {}
  busFlood : BusFloodConfig := {}
  errBurst : ErrorBurstConfig := {}
  diagFlood : DiagFloodConfig := {}
  secAccess : UdsSecAccessConfig := {}
  svcScan : UdsSvcScanConfig := {}
  cycle : CycleAnomalyConfig := {}

structure CanProbePipeline where
  known : List UInt32
  cycle : List (UInt32 × IdState)
  idFlood : OrderedMap Nat (WindowState Counter)
  busFlood : WindowState Counter
  errBurst : WindowState Counter
  diagFlood : OrderedMap Nat (WindowState Counter)
  secAccess : OrderedMap Nat (WindowState SecAccess)
  svcScan : OrderedMap Nat (WindowState SvcScan)

/-- The pipeline with the tables that the file of identifiers left. -/
def CanProbePipeline.start (tables : IdTables) : CanProbePipeline :=
  ⟨tables.known, tables.ids, .empty, ⟨0, .zero⟩, ⟨0, .zero⟩, .empty, .empty, .empty⟩

namespace CanProbePipeline

variable (cfg : PipelineConfig)

/-- The detectors behind a request for diagnostics. -/
def feedDiag (state : CanProbePipeline) (f : CanFrame) (nowMs : Nat) :
    CanProbePipeline × List ProbeAlert :=
  let (diagFlood, flood) := DiagFlood.feed cfg.diagFlood state.diagFlood f nowMs
  let (secAccess, access) := UdsSecAccess.feed cfg.secAccess state.secAccess f nowMs
  let (svcScan, scan) := UdsSvcScan.feed cfg.svcScan state.svcScan f nowMs
  ({ state with diagFlood, secAccess, svcScan },
    (flood.toList ++ access.toList ++ scan.toList).map CanAlert.probe)

/-- The detectors of every frame that carries data. -/
def feedData (state : CanProbePipeline) (f : CanFrame) (nowMs : Nat) :
    CanProbePipeline × List ProbeAlert :=
  let unknown :=
    if UnknownId.enabled state.known && !isDiagRequestId f.canId && !isDiagResponseId f.canId then
      UnknownId.feed state.known f
    else none
  let (cycle, early) := CycleAnomaly.feed cfg.cycle state.cycle f (.ofNat nowMs)
  let (idFlood, flood) := IdFlood.feed cfg.idFlood state.idFlood f nowMs
  let (busFlood, bus) := BusFlood.feed cfg.busFlood state.busFlood f nowMs
  ({ state with cycle, idFlood, busFlood },
    unknown.toList ++ early.toList ++ (flood.toList ++ bus.toList).map CanAlert.probe)

def feedFrame (state : CanProbePipeline) (f : CanFrame) (nowMs : Nat) :
    CanProbePipeline × List ProbeAlert :=
  if f.err then
    let (errBurst, burst) := ErrorBurst.feed cfg.errBurst state.errBurst f nowMs
    ({ state with errBurst }, burst.toList.map CanAlert.probe)
  else
    let dlc := (checkDlcAnomaly f).toList
    if f.rtr then (state, dlc ++ (checkRemoteFrame f).toList)
    else
      let (state, alerts) := state.feedData cfg f nowMs
      if isDiagRequestId f.canId then
        let (state, more) := state.feedDiag cfg f nowMs
        (state, dlc ++ alerts ++ more)
      else (state, dlc ++ alerts)

def feedRaw (state : CanProbePipeline) (data : List UInt8) (nowMs : Nat) :
    CanProbePipeline × List ProbeAlert :=
  match parseCanFrame data with
  | none => (state, [])
  | some f => state.feedFrame cfg f nowMs

end CanProbePipeline

/-- A record of the capture, with the time it was captured at. -/
abbrev CanRecord := List UInt8 × Nat

/-- What the capture feeds. -/
def recordPipeline (cfg : PipelineConfig) : Reactor CanProbePipeline CanRecord ProbeAlert :=
  ⟨fun state record => state.feedRaw cfg record.1 record.2⟩

def pipeline (cfg : PipelineConfig) : Reactor CanProbePipeline Event ProbeAlert :=
  ⟨fun state event => state.feedFrame cfg event.1 event.2⟩

end Idsm.CanProbe
