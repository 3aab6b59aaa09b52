import Idsm.HostProbe.Pipeline
import Idsm.HostProbe.LiveScanProperties
import Idsm.Foundation.Cooldown

/-! What the pipeline of the host probe raises: each detector what it raises alone, and those
with a mute once for a key in a cooldown. -/

set_option autoImplicit false

namespace Idsm.HostProbe

open Idsm.Foundation

/-! The detectors as machines of their own. -/

/-- What a detector keeps. -/
def AlertType.State : AlertType → Type
  | .unknownExec => UnknownExecDetector
  | .privEsc => PrivEscDetector
  | .forkFlood => ForkFloodDetector
  | .revShell => RevShellDetector
  | .fileMod => FileModDetector
  | .newSetuid => NewSetuidDetector
  | .kmodLoad => KmodLoadDetector
  | .zombieStorm => ZombieStormDetector
  | .resExhaust => ResExhaustDetector
  | .rootShell => RootShellDetector

def onExec {σ : Type} (feed : σ → ExecEvent → UInt64 → Option ProbeAlert × σ) :
    Reactor σ TimedEvent ProbeAlert where
  react := fun detector event =>
    match event.1 with
    | .exec e => ((feed detector e event.2).2, (feed detector e event.2).1.toList)
    | _ => (detector, [])

def onFileScan {σ : Type} (feed : σ → FileScanEvent → Nat → Option HostAlert × σ) :
    Reactor σ TimedEvent ProbeAlert where
  react := fun detector event =>
    match event.1 with
    | .fileScan file => ((feed detector file event.2.toNat).2,
        (feed detector file event.2.toNat).1.toList.map HostAlert.probe)
    | _ => (detector, [])

def onModuleScan {σ : Type} (feed : σ → List UInt8 → Nat → Option HostAlert × σ) :
    Reactor σ TimedEvent ProbeAlert where
  react := fun detector event =>
    match event.1 with
    | .moduleScan name => ((feed detector name event.2.toNat).2,
        (feed detector name event.2.toNat).1.toList.map HostAlert.probe)
    | _ => (detector, [])

def onSnapshot {σ : Type} (feed : σ → SnapshotEvent → UInt64 → Option ProbeAlert × σ) :
    Reactor σ TimedEvent ProbeAlert where
  react := fun detector event =>
    match event.1 with
    | .snapshot s => ((feed detector s event.2).2, (feed detector s event.2).1.toList)
    | _ => (detector, [])

def alone : (type : AlertType) → Reactor type.State TimedEvent ProbeAlert
  | .unknownExec => onExec UnknownExecDetector.feed
  | .privEsc => onExec PrivEscDetector.feed
  | .forkFlood => onExec fun detector _ => detector.feed
  | .revShell => onExec RevShellDetector.feed
  | .fileMod => onFileScan FileModDetector.feed
  | .newSetuid => onFileScan NewSetuidDetector.feed
  | .kmodLoad => onModuleScan KmodLoadDetector.feed
  | .zombieStorm => onSnapshot ZombieStormDetector.feed
  | .resExhaust => onSnapshot ResExhaustDetector.feed
  | .rootShell => onExec RootShellDetector.feed

def Probe.share (probe : Probe) : (type : AlertType) → type.State
  | .unknownExec => probe.unknownExec
  | .privEsc => probe.privEsc
  | .forkFlood => probe.forkFlood
  | .revShell => probe.revShell
  | .fileMod => probe.fileMod
  | .newSetuid => probe.newSetuid
  | .kmodLoad => probe.kmod
  | .zombieStorm => probe.zombie
  | .resExhaust => probe.res
  | .rootShell => probe.rootShell

/-! Every alert names its detector. -/

/-- The alerts of one type. -/
abbrev ofType (type : AlertType) : ProbeAlert → Option ProbeAlert :=
  labelled ProbeAlert.detectorType type

section Types

variable {e : ExecEvent} {s : SnapshotEvent} {nowMs : UInt64} {alert : ProbeAlert}

theorem raiseOnce_due {cooldownMs : UInt32} {muted : Muted}
    {due : Option (List UInt8 × ProbeAlert)}
    (raised : (raiseOnce cooldownMs muted due nowMs).1 = some alert) :
    ∃ key, due = some (key, alert) := by
  cases due with
  | none => cases raised
  | some keyed =>
      obtain ⟨key, found⟩ := keyed
      rw [raiseOnce] at raised
      split at raised
      · cases raised
      · cases raised
        exact ⟨key, rfl⟩

theorem UnknownExecDetector.due_type {detector : UnknownExecDetector} {key : List UInt8}
    (due : detector.due e = some (key, alert)) : alert.detectorType = .unknownExec := by
  rw [UnknownExecDetector.due] at due
  split_ifs at due
  cases due
  rfl

theorem PrivEscDetector.due_type {key : List UInt8}
    (due : PrivEscDetector.due e = some (key, alert)) : alert.detectorType = .privEsc := by
  rw [PrivEscDetector.due] at due
  split at due
  · cases due
  · cases due
    rfl

theorem RevShellDetector.due_type {detector : RevShellDetector} {key : List UInt8}
    (due : detector.due e = some (key, alert)) : alert.detectorType = .revShell := by
  rw [RevShellDetector.due] at due
  split_ifs at due
  cases due
  rfl

theorem RootShellDetector.due_type {key : List UInt8}
    (due : RootShellDetector.due e = some (key, alert)) : alert.detectorType = .rootShell := by
  rw [RootShellDetector.due] at due
  split at due
  · cases due
  · cases due
    rfl

theorem makeSnapAlert_type (dt : AlertType) (aux : UInt32) :
    (makeSnapAlert dt s aux).detectorType = dt := by
  rw [makeSnapAlert]
  split <;> rfl

theorem ResExhaustDetector.feed_type {detector : ResExhaustDetector}
    (raised : (detector.feed s nowMs).1 = some alert) : alert.detectorType = .resExhaust := by
  rw [ResExhaustDetector.feed] at raised
  split at raised
  · cases raised
  · split_ifs at raised <;> cases raised <;> exact makeSnapAlert_type _ _

theorem ForkFloodDetector.feed_type {detector : ForkFloodDetector}
    (raised : (detector.feed nowMs).1 = some alert) : alert.detectorType = .forkFlood := by
  rw [ForkFloodDetector.feed] at raised
  split at raised
  · cases raised
    rfl
  · cases raised

theorem ZombieStormDetector.feed_type {detector : ZombieStormDetector}
    (raised : (detector.feed s nowMs).1 = some alert) : alert.detectorType = .zombieStorm := by
  simp only [ZombieStormDetector.feed] at raised
  split_ifs at raised <;> cases raised <;> rfl

theorem NewSetuidDetector.feed_type {detector : NewSetuidDetector} {f : FileScanEvent}
    {time : Nat} {alert : HostAlert} (raised : (detector.feed f time).1 = some alert) :
    alert.detectorType = .newSetuid := by
  rw [NewSetuidDetector.feed] at raised
  split_ifs at raised
  cases raised
  rfl

end Types

/-- The alerts of a detector of scans, seen among all alerts. -/
theorem scanned_ofType {named : DetectorType} {type : AlertType} {raised : Option HostAlert}
    (names : ∀ alert, raised = some alert → alert.detectorType = named) :
    (raised.toList.map HostAlert.probe).filterMap (ofType type) =
      if named.alertType = type then raised.toList.map HostAlert.probe else [] := by
  refine filterMap_labelled fun alert member => ?_
  obtain ⟨raised', place, rfl⟩ := List.mem_map.mp member
  rw [← names raised' (Option.mem_toList.mp place)]
  rfl

section Parts

variable (probe : Probe) (event : TimedEvent) (type : AlertType)

theorem share_feedEvent : (probe.feedEvent event).2.share type =
    ((alone type).react (probe.share type) event).1 := by
  obtain ⟨event, tsMs⟩ := event
  cases event <;> cases type <;> rfl

theorem feedExec_ofType (e : ExecEvent) (tsMs : UInt64) :
    (probe.feedExec e tsMs).1.filterMap (ofType type) =
      ((alone type).react (probe.share type) (.exec e, tsMs)).2 := by
  have unknown : ∀ alert, (probe.unknownExec.feed e tsMs).1 = some alert →
      alert.detectorType = .unknownExec := fun alert raised =>
    UnknownExecDetector.due_type (raiseOnce_due raised).choose_spec
  have risen : ∀ alert, (probe.privEsc.feed e tsMs).1 = some alert →
      alert.detectorType = .privEsc := fun alert raised =>
    PrivEscDetector.due_type (raiseOnce_due raised).choose_spec
  have remote : ∀ alert, (probe.revShell.feed e tsMs).1 = some alert →
      alert.detectorType = .revShell := fun alert raised =>
    RevShellDetector.due_type (raiseOnce_due raised).choose_spec
  have root : ∀ alert, (probe.rootShell.feed e tsMs).1 = some alert →
      alert.detectorType = .rootShell := fun alert raised =>
    RootShellDetector.due_type (raiseOnce_due raised).choose_spec
  simp only [Probe.feedExec, List.filterMap_append, optional_labelled unknown,
    optional_labelled risen, optional_labelled fun _ => ForkFloodDetector.feed_type,
    optional_labelled remote, optional_labelled root]
  cases type <;> simp [alone, onExec, onFileScan, onModuleScan, onSnapshot, Probe.share]

theorem feedEvent_ofType : (probe.feedEvent event).1.filterMap (ofType type) =
    ((alone type).react (probe.share type) event).2 := by
  obtain ⟨event, tsMs⟩ := event
  cases event with
  | exec e => exact feedExec_ofType probe type e tsMs
  | fileScan file =>
      simp only [Probe.feedEvent, List.map_append, List.filterMap_append,
        scanned_ofType fun _ => FileModDetector.feed_type,
        scanned_ofType fun _ => NewSetuidDetector.feed_type]
      cases type <;> simp [alone, onExec, onFileScan, onModuleScan, onSnapshot, Probe.share,
        DetectorType.alertType]
  | moduleScan name =>
      simp only [Probe.feedEvent, scanned_ofType fun _ => KmodLoadDetector.feed_type]
      cases type <;> simp [alone, onExec, onFileScan, onModuleScan, onSnapshot, Probe.share,
        DetectorType.alertType]
  | snapshot s =>
      simp only [Probe.feedEvent, List.filterMap_append,
        optional_labelled fun _ => ZombieStormDetector.feed_type,
        optional_labelled fun _ => ResExhaustDetector.feed_type]
      cases type <;> simp [alone, onExec, onFileScan, onModuleScan, onSnapshot, Probe.share]

end Parts

/-- The pipeline is made of its detectors, and each hears every event. -/
def stage (type : AlertType) : Part eventPipeline (alone type) where
  route := fun _ event => [event]
  view := (·.share type)
  pick := ofType type
  fed := fun probe event => share_feedEvent probe event type
  picked := fun probe event => (feedEvent_ofType probe event type).trans
    Reactor.answers_singleton.symm

theorem routed_stage {type : AlertType} (probe : Probe) (events : List TimedEvent) :
    (stage type).routed probe events = events := by
  rw [Part.routed_of_stateless _ (fun _ _ => rfl), List.flatMap_singleton']

/-- In a run over any events from any state, the alerts of one type are those that their detector
raises alone, and it is left in the same state. -/
theorem events_ofType (type : AlertType) (probe : Probe) (events : List TimedEvent) :
    (eventPipeline.answers probe events).filterMap (ofType type) =
        (alone type).answers (probe.share type) events ∧
      (eventPipeline.after probe events).share type =
        (alone type).after (probe.share type) events := by
  have alike := (stage type).answers_pick probe events
  have left := (stage type).view_after probe events
  rw [routed_stage] at alike left
  exact ⟨alike, left⟩

end Idsm.HostProbe
