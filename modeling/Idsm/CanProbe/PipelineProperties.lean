import Idsm.CanProbe.Pipeline
import Idsm.CanProbe.DetectorProperties

/-! The pipeline against its detectors: each raises in the pipeline what it raises alone on the
frames of its stage, whatever else is on the bus. -/

set_option autoImplicit false

namespace Idsm.CanProbe

open Idsm.Foundation

/-! The detectors as machines of their own. -/

/-- What a detector keeps. -/
def AlertType.State : AlertType → Type
  | .unknownId => List UInt32
  | .idFlood => OrderedMap Nat (WindowState Counter)
  | .busFlood => WindowState Counter
  | .errorBurst => WindowState Counter
  | .dlcAnomaly => Unit
  | .remoteFrame => Unit
  | .udsSecAccess => OrderedMap Nat (WindowState SecAccess)
  | .udsSvcScan => OrderedMap Nat (WindowState SvcScan)
  | .diagFlood => OrderedMap Nat (WindowState Counter)
  | .cycleAnomaly => List (UInt32 × IdState)

def stateless {σ : Type} (check : σ → CanFrame → Option ProbeAlert) : Reactor σ Event ProbeAlert :=
  ⟨fun state event => (state, (check state event.1).toList)⟩

def windowed {σ : Type} (feed : σ → CanFrame → Nat → σ × Option CanAlert) :
    Reactor σ Event ProbeAlert :=
  ⟨fun state event => ((feed state event.1 event.2).1,
    (feed state event.1 event.2).2.toList.map CanAlert.probe)⟩

def alone (cfg : PipelineConfig) : (type : AlertType) → Reactor type.State Event ProbeAlert
  | .unknownId => stateless fun known f =>
      if UnknownId.enabled known then UnknownId.feed known f else none
  | .idFlood => windowed (IdFlood.feed cfg.idFlood)
  | .busFlood => windowed (BusFlood.feed cfg.busFlood)
  | .errorBurst => windowed (ErrorBurst.feed cfg.errBurst)
  | .dlcAnomaly => stateless fun _ => checkDlcAnomaly
  | .remoteFrame => stateless fun _ => checkRemoteFrame
  | .udsSecAccess => windowed (UdsSecAccess.feed cfg.secAccess)
  | .udsSvcScan => windowed (UdsSvcScan.feed cfg.svcScan)
  | .diagFlood => windowed (DiagFlood.feed cfg.diagFlood)
  | .cycleAnomaly => ⟨fun ids event =>
      ((CycleAnomaly.feed cfg.cycle ids event.1 (.ofNat event.2)).1,
        (CycleAnomaly.feed cfg.cycle ids event.1 (.ofNat event.2)).2.toList)⟩

/-- The frames of a detector's stage. -/
def AlertType.admits : AlertType → CanFrame → Bool
  | .errorBurst, f => f.err
  | .dlcAnomaly, f => !f.err
  | .remoteFrame, f => !f.err && f.rtr
  | .unknownId, f => !f.err && !f.rtr && !isDiagRequestId f.canId && !isDiagResponseId f.canId
  | .cycleAnomaly, f => !f.err && !f.rtr
  | .idFlood, f => !f.err && !f.rtr
  | .busFlood, f => !f.err && !f.rtr
  | .diagFlood, f => !f.err && !f.rtr && isDiagRequestId f.canId
  | .udsSecAccess, f => !f.err && !f.rtr && isDiagRequestId f.canId
  | .udsSvcScan, f => !f.err && !f.rtr && isDiagRequestId f.canId

def CanProbePipeline.share (state : CanProbePipeline) : (type : AlertType) → type.State
  | .unknownId => state.known
  | .idFlood => state.idFlood
  | .busFlood => state.busFlood
  | .errorBurst => state.errBurst
  | .dlcAnomaly => ()
  | .remoteFrame => ()
  | .udsSecAccess => state.secAccess
  | .udsSvcScan => state.svcScan
  | .diagFlood => state.diagFlood
  | .cycleAnomaly => state.cycle

/-! Every alert names its detector. -/

/-- The alerts of one type. -/
abbrev ofType (type : AlertType) : ProbeAlert → Option ProbeAlert :=
  labelled ProbeAlert.detectorType type

section Types

variable {type : DetectorType} {alert : CanAlert}

theorem Counter.add_type {threshold : UInt32} {report : UInt32 → CanAlert} {counter : Counter}
    (names : ∀ count, (report count).detectorType = type)
    (raised : (counter.add threshold report).2 = some alert) : alert.detectorType = type := by
  rw [Counter.add] at raised
  split at raised
  · cases raised
    exact names _
  · cases raised

theorem SecAccess.add_type {cfg : UdsSecAccessConfig} {f : CanFrame} {held : SecAccess}
    (raised : (held.add cfg f).2 = some alert) : alert.detectorType = .udsSecAccess := by
  rw [SecAccess.add] at raised
  split at raised
  · exact Counter.add_type (fun _ => rfl) raised
  · exact Counter.add_type (fun _ => rfl) raised

theorem SvcScan.add_type {cfg : UdsSvcScanConfig} {f : CanFrame} {held : SvcScan}
    (raised : (held.add cfg f).2 = some alert) : alert.detectorType = .udsSvcScan := by
  rw [SvcScan.add] at raised
  split at raised
  · cases raised
    rfl
  · cases raised

end Types

/-- The alerts of a windowed detector, seen among all alerts. -/
theorem windowed_ofType {named : DetectorType} {type : AlertType} {raised : Option CanAlert}
    (names : ∀ alert, raised = some alert → alert.detectorType = named) :
    (raised.toList.map CanAlert.probe).filterMap (ofType type) =
      if named.alertType = type then raised.toList.map CanAlert.probe else [] := by
  refine filterMap_labelled fun alert member => ?_
  obtain ⟨raised', place, rfl⟩ := List.mem_map.mp member
  rw [← names raised' (Option.mem_toList.mp place)]
  rfl

section Detectors

variable {cfg : PipelineConfig} {f : CanFrame} {nowMs : Nat} {alert : CanAlert}

theorem IdFlood.feed_type {cfg : IdFloodConfig} {ids : OrderedMap Nat (WindowState Counter)}
    (raised : (IdFlood.feed cfg ids f nowMs).2 = some alert) : alert.detectorType = .idFlood := by
  rw [IdFlood.feed] at raised
  split at raised
  · cases raised
  · exact Counter.add_type (fun _ => rfl) raised

theorem BusFlood.feed_type {cfg : BusFloodConfig} {state : WindowState Counter}
    (raised : (BusFlood.feed cfg state f nowMs).2 = some alert) :
    alert.detectorType = .busFlood :=
  Counter.add_type (fun _ => rfl) raised

theorem ErrorBurst.feed_type {cfg : ErrorBurstConfig} {state : WindowState Counter}
    (raised : (ErrorBurst.feed cfg state f nowMs).2 = some alert) :
    alert.detectorType = .errorBurst :=
  Counter.add_type (fun _ => rfl) raised

theorem DiagFlood.feed_type {cfg : DiagFloodConfig}
    {testers : OrderedMap Nat (WindowState Counter)}
    (raised : (DiagFlood.feed cfg testers f nowMs).2 = some alert) :
    alert.detectorType = .diagFlood :=
  Counter.add_type (fun _ => rfl) raised

theorem UdsSecAccess.feed_type {cfg : UdsSecAccessConfig}
    {testers : OrderedMap Nat (WindowState SecAccess)}
    (raised : (UdsSecAccess.feed cfg testers f nowMs).2 = some alert) :
    alert.detectorType = .udsSecAccess := by
  rw [UdsSecAccess.feed] at raised
  split at raised
  · exact SecAccess.add_type raised
  · cases raised

theorem UdsSvcScan.feed_type {cfg : UdsSvcScanConfig}
    {testers : OrderedMap Nat (WindowState SvcScan)}
    (raised : (UdsSvcScan.feed cfg testers f nowMs).2 = some alert) :
    alert.detectorType = .udsSvcScan := by
  rw [UdsSvcScan.feed] at raised
  split at raised
  · exact SvcScan.add_type raised
  · cases raised

theorem IdState.feed_type {cfg : CycleAnomalyConfig} {st : IdState} {now : UInt64}
    {alert : ProbeAlert} (raised : (st.feed cfg f now).2 = some alert) :
    alert.detectorType = .cycleAnomaly := by
  rw [IdState.feed] at raised
  split_ifs at raised
  cases raised
  rfl

theorem CycleAnomaly.feed_type {cfg : CycleAnomalyConfig} {ids : List (UInt32 × IdState)}
    {now : UInt64} {alert : ProbeAlert} (raised : (CycleAnomaly.feed cfg ids f now).2 = some alert) :
    alert.detectorType = .cycleAnomaly := by
  rw [CycleAnomaly.feed] at raised
  split at raised
  · cases raised
  · exact IdState.feed_type raised

theorem checkDlcAnomaly_type {alert : ProbeAlert} (raised : checkDlcAnomaly f = some alert) :
    alert.detectorType = .dlcAnomaly := by
  rw [checkDlcAnomaly] at raised
  split_ifs at raised <;> cases raised <;> rfl

theorem checkRemoteFrame_type {alert : ProbeAlert} (raised : checkRemoteFrame f = some alert) :
    alert.detectorType = .remoteFrame := by
  rw [checkRemoteFrame] at raised
  split_ifs at raised
  cases raised
  rfl

theorem UnknownId.feed_type {known : List UInt32} {alert : ProbeAlert}
    (raised : UnknownId.feed known f = some alert) : alert.detectorType = .unknownId := by
  rw [UnknownId.feed] at raised
  split_ifs at raised
  cases raised
  rfl

end Detectors

section Stages

variable (cfg : PipelineConfig) (state : CanProbePipeline) (f : CanFrame) (nowMs : Nat)

theorem feedFrame_err (err : f.err = true) : state.feedFrame cfg f nowMs =
    ({ state with errBurst := (ErrorBurst.feed cfg.errBurst state.errBurst f nowMs).1 },
      (ErrorBurst.feed cfg.errBurst state.errBurst f nowMs).2.toList.map CanAlert.probe) :=
  if_pos err

theorem feedFrame_rtr (err : f.err = false) (rtr : f.rtr = true) :
    state.feedFrame cfg f nowMs = (state, (checkRemoteFrame f).toList) := by
  simp [CanProbePipeline.feedFrame, checkDlcAnomaly, err, rtr]

theorem feedFrame_data (err : f.err = false) (rtr : f.rtr = false)
    (plain : isDiagRequestId f.canId = false) : state.feedFrame cfg f nowMs =
    ((state.feedData cfg f nowMs).1,
      (checkDlcAnomaly f).toList ++ (state.feedData cfg f nowMs).2) := by
  simp [CanProbePipeline.feedFrame, err, rtr, plain]

theorem feedFrame_diag (err : f.err = false) (rtr : f.rtr = false)
    (diag : isDiagRequestId f.canId = true) : state.feedFrame cfg f nowMs =
    (((state.feedData cfg f nowMs).1.feedDiag cfg f nowMs).1,
      (checkDlcAnomaly f).toList ++ (state.feedData cfg f nowMs).2 ++
        ((state.feedData cfg f nowMs).1.feedDiag cfg f nowMs).2) := by
  simp [CanProbePipeline.feedFrame, err, rtr, diag]

end Stages

section Shares

variable (cfg : PipelineConfig) (state : CanProbePipeline) (f : CanFrame) (nowMs : Nat)
  (type : AlertType)

theorem feedData_ofType : (state.feedData cfg f nowMs).2.filterMap (ofType type) =
    (if AlertType.unknownId = type then
      (if UnknownId.enabled state.known && !isDiagRequestId f.canId &&
        !isDiagResponseId f.canId then UnknownId.feed state.known f else none).toList
      else []) ++
    (if AlertType.cycleAnomaly = type then
      (CycleAnomaly.feed cfg.cycle state.cycle f (.ofNat nowMs)).2.toList else []) ++
    (if AlertType.idFlood = type then
      (IdFlood.feed cfg.idFlood state.idFlood f nowMs).2.toList.map CanAlert.probe else []) ++
    (if AlertType.busFlood = type then
      (BusFlood.feed cfg.busFlood state.busFlood f nowMs).2.toList.map CanAlert.probe else []) := by
  have unknown : ∀ alert, (if UnknownId.enabled state.known && !isDiagRequestId f.canId &&
        !isDiagResponseId f.canId then UnknownId.feed state.known f else none) = some alert →
      alert.detectorType = .unknownId := by
    intro alert raised
    split_ifs at raised
    exact UnknownId.feed_type raised
  simp only [CanProbePipeline.feedData, List.filterMap_append, List.map_append,
    optional_labelled unknown, optional_labelled fun _ => CycleAnomaly.feed_type,
    windowed_ofType fun _ => IdFlood.feed_type, windowed_ofType fun _ => BusFlood.feed_type,
    DetectorType.alertType, List.append_assoc]
  rfl

theorem feedDiag_ofType : (state.feedDiag cfg f nowMs).2.filterMap (ofType type) =
    (if AlertType.diagFlood = type then
      (DiagFlood.feed cfg.diagFlood state.diagFlood f nowMs).2.toList.map CanAlert.probe
      else []) ++
    (if AlertType.udsSecAccess = type then
      (UdsSecAccess.feed cfg.secAccess state.secAccess f nowMs).2.toList.map CanAlert.probe
      else []) ++
    (if AlertType.udsSvcScan = type then
      (UdsSvcScan.feed cfg.svcScan state.svcScan f nowMs).2.toList.map CanAlert.probe
      else []) := by
  simp only [CanProbePipeline.feedDiag, List.filterMap_append, List.map_append,
    windowed_ofType fun _ => DiagFlood.feed_type,
    windowed_ofType fun _ => UdsSecAccess.feed_type,
    windowed_ofType fun _ => UdsSvcScan.feed_type, DetectorType.alertType]
  rfl

theorem checkDlcAnomaly_ofType : (checkDlcAnomaly f).toList.filterMap (ofType type) =
    if AlertType.dlcAnomaly = type then (checkDlcAnomaly f).toList else [] :=
  optional_labelled fun _ => checkDlcAnomaly_type

/-- What a frame leaves of the state of one detector. -/
theorem share_feedFrame : (state.feedFrame cfg f nowMs).1.share type =
    (alone cfg type).after (state.share type)
      (if type.admits f then [(f, nowMs)] else []) := by
  cases err : f.err with
  | true =>
      rw [feedFrame_err cfg state f nowMs err]
      cases type <;> simp [AlertType.admits, err] <;> rfl
  | false =>
      cases rtr : f.rtr with
      | true =>
          rw [feedFrame_rtr cfg state f nowMs err rtr]
          cases type <;> simp [AlertType.admits, err, rtr] <;> rfl
      | false =>
          cases diag : isDiagRequestId f.canId with
          | false =>
              rw [feedFrame_data cfg state f nowMs err rtr diag]
              cases reply : isDiagResponseId f.canId <;>
                cases type <;> simp [AlertType.admits, err, rtr, diag, reply] <;> rfl
          | true =>
              rw [feedFrame_diag cfg state f nowMs err rtr diag]
              cases type <;> simp [AlertType.admits, err, rtr, diag] <;> rfl

/-- What a frame raises of one type. -/
theorem feedFrame_ofType : (state.feedFrame cfg f nowMs).2.filterMap (ofType type) =
    (alone cfg type).answers (state.share type)
      (if type.admits f then [(f, nowMs)] else []) := by
  cases err : f.err with
  | true =>
      rw [feedFrame_err cfg state f nowMs err, windowed_ofType fun _ => ErrorBurst.feed_type]
      cases type <;> simp [AlertType.admits, DetectorType.alertType, err, Reactor.answers,
        alone, windowed, CanProbePipeline.share]
  | false =>
      cases rtr : f.rtr with
      | true =>
          rw [feedFrame_rtr cfg state f nowMs err rtr,
            optional_labelled fun _ => checkRemoteFrame_type]
          cases type <;> simp [AlertType.admits, err, rtr, Reactor.answers, alone, stateless,
            checkDlcAnomaly]
      | false =>
          cases diag : isDiagRequestId f.canId with
          | false =>
              rw [feedFrame_data cfg state f nowMs err rtr diag, List.filterMap_append,
                feedData_ofType, checkDlcAnomaly_ofType]
              cases reply : isDiagResponseId f.canId <;>
                cases type <;> simp [AlertType.admits, err, rtr, diag, reply,
                  Reactor.answers, alone, stateless, windowed, CanProbePipeline.share]
          | true =>
              rw [feedFrame_diag cfg state f nowMs err rtr diag, List.filterMap_append,
                List.filterMap_append, feedData_ofType, feedDiag_ofType, checkDlcAnomaly_ofType]
              cases type <;> simp [AlertType.admits, err, rtr, diag, Reactor.answers, alone,
                stateless, windowed, CanProbePipeline.share, CanProbePipeline.feedData]

end Shares

/-- The pipeline is made of its detectors, each with the frames of its stage. -/
def stage (cfg : PipelineConfig) (type : AlertType) : Part (pipeline cfg) (alone cfg type) where
  route := fun _ event => if type.admits event.1 then [event] else []
  view := (·.share type)
  pick := ofType type
  fed := fun state event => share_feedFrame cfg state event.1 event.2 type
  picked := fun state event => feedFrame_ofType cfg state event.1 event.2 type

/-- The frame of a record that has one. -/
def CanRecord.frame (record : CanRecord) : Option Event :=
  (parseCanFrame record.1).map (·, record.2)

/-- Records without a frame do nothing. -/
def parsed (cfg : PipelineConfig) : Part (recordPipeline cfg) (pipeline cfg) where
  route := fun _ record => record.frame.toList
  view := id
  pick := some
  fed := by
    intro state record
    cases read : parseCanFrame record.1 <;>
      simp [recordPipeline, pipeline, CanProbePipeline.feedRaw, CanRecord.frame, read,
        Reactor.after]
  picked := by
    intro state record
    cases read : parseCanFrame record.1 <;>
      simp [recordPipeline, pipeline, CanProbePipeline.feedRaw, CanRecord.frame, read,
        Reactor.answers]

/-- The frames of these records that reach a detector. -/
def AlertType.reached (type : AlertType) (records : List CanRecord) : List Event :=
  (records.filterMap CanRecord.frame).filter fun event => type.admits event.1

theorem routed_stage {cfg : PipelineConfig} {type : AlertType} (state : CanProbePipeline)
    (events : List Event) :
    (stage cfg type).routed state events = events.filter fun event => type.admits event.1 := by
  induction events generalizing state with
  | nil => rfl
  | cons event events ih =>
      rw [Part.routed, ih, List.filter_cons]
      cases admitted : type.admits event.1 <;> simp [stage, admitted]

theorem routed_records {cfg : PipelineConfig} {type : AlertType} (state : CanProbePipeline)
    (records : List CanRecord) :
    ((parsed cfg).comp (stage cfg type)).routed state records = type.reached records := by
  induction records generalizing state with
  | nil => rfl
  | cons record records ih =>
      have here : ((parsed cfg).comp (stage cfg type)).route state record =
          record.frame.toList.filter fun event => type.admits event.1 := routed_stage _ _
      rw [Part.routed, ih, here, AlertType.reached, AlertType.reached, List.filterMap_cons]
      cases record.frame with
      | none => rfl
      | some event => exact (List.filter_append ..).symm

/-- What a detector raises with one record of a run. -/
theorem react_ofType (cfg : PipelineConfig) (type : AlertType) (state : CanProbePipeline)
    (before : List CanRecord) (record : CanRecord) :
    ((recordPipeline cfg).react ((recordPipeline cfg).after state before) record).2.filterMap
        (ofType type) =
      (alone cfg type).answers
        ((alone cfg type).after (state.share type) (type.reached before))
        (type.reached [record]) := by
  have alike := ((parsed cfg).comp (stage cfg type)).react_pick state before record
  rw [routed_records] at alike
  refine alike.trans (congrArg _ ?_)
  rw [← @routed_records cfg type ((recordPipeline cfg).after state before), Part.routed,
    Part.routed, List.append_nil]

/-- In a run over any records from any state, the alerts of one type are those that their
detector raises alone on the frames of its stage, and it is left in the same state. -/
theorem records_ofType (cfg : PipelineConfig) (type : AlertType) (state : CanProbePipeline)
    (records : List CanRecord) :
    ((recordPipeline cfg).answers state records).filterMap (ofType type) =
        (alone cfg type).answers (state.share type) (type.reached records) ∧
      ((recordPipeline cfg).after state records).share type =
        (alone cfg type).after (state.share type) (type.reached records) := by
  have alike := ((parsed cfg).comp (stage cfg type)).answers_pick state records
  have left := ((parsed cfg).comp (stage cfg type)).view_after state records
  rw [routed_records] at alike left
  exact ⟨alike, left⟩

/-! Windows in the pipeline. -/

def PipelineConfig.detector (cfg : PipelineConfig) : DetectorType → Detector
  | .idFlood => .idFlood cfg.idFlood
  | .busFlood => .busFlood cfg.busFlood
  | .errorBurst => .errorBurst cfg.errBurst
  | .udsSecAccess => .udsSecAccess cfg.secAccess
  | .udsSvcScan => .udsSvcScan cfg.svcScan
  | .diagFlood => .diagFlood cfg.diagFlood

theorem after_windowed {σ : Type} (feed : σ → CanFrame → Nat → σ × Option CanAlert) (initial : σ)
    (events : List Event) : (windowed feed).after initial events = stateAfter initial feed events := by
  induction events generalizing initial with
  | nil => rfl
  | cons event events ih => exact ih _

/-- A windowed detector of a fresh pipeline, alone on these events. -/
theorem answers_alone (cfg : PipelineConfig) (tables : IdTables) (type : DetectorType)
    (before : List Event) (event : Event) :
    (alone cfg type.alertType).answers ((alone cfg type.alertType).after
        ((CanProbePipeline.start tables).share type.alertType) before) [event] =
      ((cfg.detector type).alert before event).toList.map CanAlert.probe := by
  rw [Reactor.answers_singleton]
  cases type <;> exact congrArg (fun state => ((windowed _).react state event).2)
    (after_windowed _ _ before)

variable {cfg : PipelineConfig} {tables : IdTables} {type : DetectorType}
  {before : List CanRecord} {record : CanRecord}

theorem mem_reached {type : AlertType} {records : List CanRecord} {event : Event}
    (member : event ∈ type.reached records) :
    ∃ record ∈ records, record.frame = some event ∧ event.2 = record.2 := by
  obtain ⟨record, place, frame⟩ := List.mem_filterMap.mp (List.mem_filter.mp member).1
  refine ⟨record, place, frame, ?_⟩
  obtain ⟨f, _, same⟩ := Option.map_eq_some_iff.mp frame
  rw [← same]

theorem inTime_reached (type : AlertType) {records : List CanRecord}
    (inOrder : records.Pairwise fun first second => first.2 ≤ second.2) :
    InTime (type.reached records) := by
  refine List.Pairwise.filter _ (List.Pairwise.filterMap _ ?_ inOrder)
  intro first second order event frame other frame'
  obtain ⟨_, _, rfl⟩ := Option.map_eq_some_iff.mp frame
  obtain ⟨_, _, rfl⟩ := Option.map_eq_some_iff.mp frame'
  exact order

theorem reached_append (type : AlertType) (before later : List CanRecord) :
    type.reached (before ++ later) = type.reached before ++ type.reached later := by
  rw [AlertType.reached, List.filterMap_append, List.filter_append]
  rfl

/-- No window opens at time zero. -/
theorem clearRun_of_timed (watch : Watch) {events : List Event}
    (timed : ∀ event ∈ events, event.2 ≠ 0) : watch.ClearRun events := by
  intro before event front _ first opens zero
  have inside := (window_sublist watch before (watch.key event.1)).subset (List.mem_of_mem_head? opens)
  exact absurd zero (timed first (front.subset (List.mem_append_left [event] inside)))

theorem mem_ofType {type : AlertType} {alerts : List ProbeAlert} :
    (∃ alert ∈ alerts, alert.detectorType = type) ↔ alerts.filterMap (ofType type) ≠ [] := by
  simp only [← mem_labelled]
  constructor
  · rintro ⟨alert, member⟩
    exact List.ne_nil_of_mem member
  · exact List.exists_mem_of_ne_nil _

/-- In a run over records with times, the pipeline reports a rate or a scan with exactly the
record whose frame fills the window of its key. -/
theorem window_reported_iff (positive : (cfg.detector type).watch.windowMs ≠ 0)
    (inOrder : (before ++ [record]).Pairwise fun first second => first.2 ≤ second.2)
    (timed : ∀ member ∈ before ++ [record], member.2 ≠ 0) :
    (∃ alert ∈ ((recordPipeline cfg).react ((recordPipeline cfg).after
        (CanProbePipeline.start tables) before) record).2,
        alert.detectorType = type.alertType) ↔
      ∃ event, record.frame = some event ∧ type.alertType.admits event.1 = true ∧
        (cfg.detector type).watch.counts event.1 = true ∧
        (cfg.detector type).watch.Reaches ((cfg.detector type).watch.kept
          ((cfg.detector type).watch.window (type.alertType.reached before)
            ((cfg.detector type).watch.key event.1)) event.2) event := by
  rw [mem_ofType, react_ofType]
  cases frame : record.frame with
  | none => simp [AlertType.reached, frame]
  | some event =>
      cases admitted : type.alertType.admits event.1 with
      | false => simp [AlertType.reached, frame, admitted]
      | true =>
          have single : type.alertType.reached [record] = [event] := by
            simp [AlertType.reached, frame, admitted]
          have whole : type.alertType.reached before ++ [event] =
              type.alertType.reached (before ++ [record]) := by
            rw [reached_append, single]
          have clear : (cfg.detector type).watch.ClearRun
              (type.alertType.reached before ++ [event]) := by
            rw [whole]
            refine clearRun_of_timed _ fun member place => ?_
            obtain ⟨source, inside, _, time⟩ := mem_reached place
            rw [time]
            exact timed source inside
          have law : (cfg.detector type).watch.TumblingAt (cfg.detector type).alert
              (type.alertType.reached before) event :=
            tumbles _ positive (whole ▸ inTime_reached _ inOrder) clear
          rw [single, answers_alone, ne_eq, List.map_eq_nil_iff, Option.toList_eq_nil_iff, ← ne_eq,
            ← Option.isSome_iff_ne_none, law.crossing]
          constructor
          · exact fun reaches => ⟨event, rfl, admitted, reaches⟩
          · rintro ⟨other, same, _, reaches⟩
            cases same
            exact reaches

/-- The second frame of a flood of two. -/
theorem window_reported_sample :
    ∃ alert ∈ ((recordPipeline { idFlood := ⟨1000, 2⟩ }).react
        ((recordPipeline { idFlood := ⟨1000, 2⟩ }).after (CanProbePipeline.start .empty)
          [(List.replicate 16 1, 5)]) (List.replicate 16 1, 6)).2,
      alert.detectorType = .idFlood := by
  refine (@window_reported_iff { idFlood := ⟨1000, 2⟩ } .empty .idFlood _ _ (by decide) (by decide)
    (by decide)).2 ⟨_, rfl, ?_, ?_, ?_, ?_⟩
  · decide
  · decide
  · decide
  · decide

end Idsm.CanProbe
