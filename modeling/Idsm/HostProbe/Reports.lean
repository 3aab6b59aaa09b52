import Idsm.HostProbe.DetectorProperties
import Idsm.Dashboard.ContextProperties
import Idsm.Dashboard.Violations
import Idsm.Foundation.Execution

/-! The context of a host alert, from the probe that reports it to the dashboards that show it. -/

set_option autoImplicit false

namespace Idsm.HostProbe

open Idsm.Foundation
open Idsm.EthProbe (be32)
open Idsm.Protocol (bigEndian)
open Idsm.Dashboard

def serializeContext (a : ProbeAlert) : List UInt8 :=
  [a.detectorType.code, a.flags] ++ be32 a.pid ++ be32 a.uid ++ be32 a.count ++ be32 a.aux ++
    a.name ++ [0, 0]

/-- The external event of the first security event. -/
def sevExtBase : Nat := 0x8021

def maxDetectorType : UInt8 := 10

/-- One security event for each detector. -/
def sevForDetector (detectorType : UInt8) : Option Nat :=
  if 1 ≤ detectorType ∧ detectorType ≤ maxDetectorType then some (detectorType.toNat - 1)
  else none

/-- What the manager gets of an alert. -/
structure Report where
  sev : Nat
  context : List UInt8
  count : UInt16

/-- At least one occurrence, and no more than the manager can count. -/
def reportedCount (count : UInt32) : UInt16 :=
  if 65535 < count then 65535 else if count = 0 then 1 else count.toUInt16

def reportAlert (a : ProbeAlert) : Option Report :=
  (sevForDetector a.detectorType.code).map fun sev =>
    ⟨sev, serializeContext a, reportedCount a.count⟩

/-- The constant of a detector without `DT_`. -/
def AlertType.label : AlertType → String
  | .unknownExec => "UNKNOWN_EXEC"
  | .privEsc => "PRIV_ESC"
  | .forkFlood => "FORK_FLOOD"
  | .revShell => "REV_SHELL"
  | .fileMod => "FILE_MOD"
  | .newSetuid => "NEW_SETUID"
  | .kmodLoad => "KMOD_LOAD"
  | .zombieStorm => "ZOMBIE_STORM"
  | .resExhaust => "RES_EXHAUST"
  | .rootShell => "ROOT_SHELL"

def asciiChars (bytes : List UInt8) : List Char := bytes.map fun byte => Char.ofNat byte.toNat

/-- The text of ASCII bytes is their characters. -/
def ReadsAscii (runtime : Runtime) : Prop :=
  ∀ bytes : List UInt8, (∀ byte ∈ bytes, byte < 128) →
    (runtime.utf8ToString bytes).toList = asciiChars bytes

/-- A context that tells of an alert all that the alert has. -/
structure Shows (context : HostContext) (a : ProbeAlert) : Prop where
  detector : context.detector = "HOST_" ++ a.detectorType.label
  detectorType : context.detectorType = a.detectorType.code.toNat
  flags : context.flags = a.flags.toNat
  hostPid : context.hostPid = a.pid.toNat
  uid : context.uid = a.uid.toNat
  count : context.count = a.count.toNat
  aux : context.aux = a.aux.toNat
  proc : (∀ byte ∈ a.name, byte < 128) →
    context.proc = String.ofList (asciiChars (a.name.takeWhile (· ≠ 0)))

/-! Every alert has a name that fits. -/

section Names

variable {alert : ProbeAlert}

/-- The name is the end of a path, or of a process. -/
def ProbeAlert.Named (alert : ProbeAlert) : Prop := ∃ source, alert.name = fillName source

theorem length_fillName (source : List UInt8) : (fillName source).length = 12 := by
  have short := List.length_take_le 11 (source.rtakeWhile (· ≠ 47))
  rw [fillName, List.length_append, List.length_replicate]
  omega

theorem ProbeAlert.Named.length (named : alert.Named) : alert.name.length = 12 := by
  obtain ⟨source, same⟩ := named
  rw [same, length_fillName]

theorem countAlert_named (dt : AlertType) (count : UInt32) : (countAlert dt count).Named :=
  ⟨[], rfl⟩

theorem makeSnapAlert_named (dt : AlertType) (s : SnapshotEvent) (aux : UInt32) :
    (makeSnapAlert dt s aux).Named := by
  rw [makeSnapAlert]
  split <;> exact ⟨_, rfl⟩

theorem scanOnce_due {cooldownMs : UInt32} {muted : Muted} {nowMs : Nat} {found : HostAlert}
    {due : Option (List UInt8 × HostAlert)}
    (raised : (scanOnce cooldownMs muted due nowMs).1 = some found) :
    ∃ key, due = some (key, found) := by
  cases due with
  | none => cases raised
  | some keyed =>
      obtain ⟨key, due⟩ := keyed
      rw [scanOnce] at raised
      split at raised
      · cases raised
      · cases raised
        exact ⟨key, rfl⟩

theorem UnknownExecDetector.due_named {detector : UnknownExecDetector} {e : ExecEvent}
    {key : List UInt8} (due : detector.due e = some (key, alert)) : alert.Named := by
  rw [UnknownExecDetector.due] at due
  split_ifs at due
  cases due
  exact ⟨_, rfl⟩

theorem PrivEscDetector.due_named {e : ExecEvent} {key : List UInt8}
    (due : PrivEscDetector.due e = some (key, alert)) : alert.Named := by
  rw [PrivEscDetector.due] at due
  split at due
  · cases due
  · cases due
    exact ⟨_, rfl⟩

theorem RevShellDetector.due_named {detector : RevShellDetector} {e : ExecEvent}
    {key : List UInt8} (due : detector.due e = some (key, alert)) : alert.Named := by
  rw [RevShellDetector.due] at due
  split_ifs at due
  cases due
  exact ⟨_, rfl⟩

theorem RootShellDetector.due_named {e : ExecEvent} {key : List UInt8}
    (due : RootShellDetector.due e = some (key, alert)) : alert.Named := by
  rw [RootShellDetector.due] at due
  split at due
  · cases due
  · cases due
    exact ⟨_, rfl⟩

theorem FileModDetector.due_named {detector : FileModDetector} {f : FileScanEvent}
    {keyed : List UInt8 × HostAlert} (due : detector.due f = some keyed) :
    keyed.2.probe.Named := by
  obtain ⟨expected, _, found⟩ := Option.bind_eq_some_iff.mp due
  split_ifs at found <;> cases found <;> exact ⟨_, rfl⟩

theorem NewSetuidDetector.due_named {detector : NewSetuidDetector} {f : FileScanEvent}
    {keyed : List UInt8 × HostAlert} (due : detector.due f = some keyed) :
    keyed.2.probe.Named := by
  rw [NewSetuidDetector.due] at due
  split_ifs at due
  cases due
  exact ⟨_, rfl⟩

theorem KmodLoadDetector.due_named {detector : KmodLoadDetector} {name : List UInt8}
    {keyed : List UInt8 × HostAlert} (due : detector.due name = some keyed) :
    keyed.2.probe.Named := by
  rw [KmodLoadDetector.due] at due
  split_ifs at due
  cases due
  exact ⟨_, rfl⟩

theorem ForkFloodDetector.feed_named {detector : ForkFloodDetector} {nowMs : UInt64}
    (raised : (detector.feed nowMs).1 = some alert) : alert.Named := by
  rw [ForkFloodDetector.feed] at raised
  split at raised
  · cases raised
    exact countAlert_named _ _
  · cases raised

theorem ZombieStormDetector.feed_named {detector : ZombieStormDetector} {s : SnapshotEvent}
    {nowMs : UInt64} (raised : (detector.feed s nowMs).1 = some alert) : alert.Named := by
  simp only [ZombieStormDetector.feed] at raised
  split_ifs at raised <;> cases raised <;> exact countAlert_named _ _

theorem ResExhaustDetector.feed_named {detector : ResExhaustDetector} {s : SnapshotEvent}
    {nowMs : UInt64} (raised : (detector.feed s nowMs).1 = some alert) : alert.Named := by
  rw [ResExhaustDetector.feed] at raised
  split at raised
  · cases raised
  · split_ifs at raised <;> cases raised <;> exact makeSnapAlert_named _ _ _

/-- An alert of a scan, behind what is due. -/
theorem scanned_named {cooldownMs : UInt32} {muted : Muted} {nowMs : Nat}
    {due : Option (List UInt8 × HostAlert)} {fed : Option HostAlert}
    (same : fed = (scanOnce cooldownMs muted due nowMs).1)
    (named : ∀ keyed, due = some keyed → keyed.2.probe.Named)
    (raised : alert ∈ fed.toList.map HostAlert.probe) : alert.Named := by
  obtain ⟨found, place, rfl⟩ := List.mem_map.mp raised
  obtain ⟨key, found'⟩ := scanOnce_due (same ▸ Option.mem_toList.mp place)
  exact named (key, found) found'

theorem react_named {type : AlertType} {detector : type.State} {event : TimedEvent}
    (raised : alert ∈ ((alone type).react detector event).2) : alert.Named := by
  obtain ⟨event, tsMs⟩ := event
  cases type <;> cases event <;> try cases raised
  next e =>
    obtain ⟨key, due⟩ := raiseOnce_due (Option.mem_toList.mp raised)
    exact UnknownExecDetector.due_named due
  next e =>
    obtain ⟨key, due⟩ := raiseOnce_due (Option.mem_toList.mp raised)
    exact PrivEscDetector.due_named due
  next e => exact ForkFloodDetector.feed_named (Option.mem_toList.mp raised)
  next e =>
    obtain ⟨key, due⟩ := raiseOnce_due (Option.mem_toList.mp raised)
    exact RevShellDetector.due_named due
  next f =>
    have fed := congrArg Prod.fst (FileModDetector.feed_due detector f tsMs.toNat)
    exact scanned_named fed (fun _ => FileModDetector.due_named) raised
  next f =>
    have fed := congrArg Prod.fst (NewSetuidDetector.feed_due detector f tsMs.toNat)
    exact scanned_named fed (fun _ => NewSetuidDetector.due_named) raised
  next name =>
    have fed := congrArg Prod.fst (KmodLoadDetector.feed_due detector name tsMs.toNat)
    exact scanned_named fed (fun _ => KmodLoadDetector.due_named) raised
  next s => exact ZombieStormDetector.feed_named (Option.mem_toList.mp raised)
  next s => exact ResExhaustDetector.feed_named (Option.mem_toList.mp raised)
  next e =>
    obtain ⟨key, due⟩ := raiseOnce_due (Option.mem_toList.mp raised)
    exact RootShellDetector.due_named due

theorem named_of_raised {probe : Probe} {event : TimedEvent}
    (raised : alert ∈ (eventPipeline.react probe event).2) : alert.Named := by
  have own : alert ∈ (probe.feedEvent event).1.filterMap (ofType alert.detectorType) :=
    mem_labelled.mpr ⟨raised, rfl⟩
  rw [feedEvent_ofType] at own
  exact react_named own

theorem named_of_answers {probe : Probe} {events : List TimedEvent}
    (raised : alert ∈ eventPipeline.answers probe events) : alert.Named :=
  Reactor.answers_property (fun _ => named_of_raised) alert raised

end Names

section Reports

variable {alert : ProbeAlert} {runtime : Runtime} {eventId : JsValue}

theorem length_serializeContext (named : alert.Named) : (serializeContext alert).length = 32 := by
  simp [serializeContext, be32, named.length]

/-- The dashboard has a name for each security event. -/
theorem lookup_hostDetectorNames (type : AlertType) :
    hostDetectorNames.lookup (toString (sevExtBase + (type.code.toNat - 1))) =
      some ("HOST_" ++ type.label) := by
  cases type <;> decide

theorem not_inherited (type : AlertType) :
    toString (sevExtBase + (type.code.toNat - 1)) ∉ inheritedNames := by
  cases type <;> decide

theorem sevForDetector_code (type : AlertType) :
    sevForDetector type.code = some (type.code.toNat - 1) := by
  cases type <;> rfl

/-- The decoder reads each field where the probe wrote it. -/
theorem fields_serializeContext (named : alert.Named) :
    readUInt32BE (serializeContext alert) 2 = alert.pid.toNat ∧
      readUInt32BE (serializeContext alert) 6 = alert.uid.toNat ∧
      readUInt32BE (serializeContext alert) 10 = alert.count.toNat ∧
      readUInt32BE (serializeContext alert) 14 = alert.aux.toNat ∧
      ((serializeContext alert).drop 18).take 12 = alert.name := by
  have field := read_behind (serializeContext alert)
  have pid : ((serializeContext alert).drop 2).take 4 = be32 alert.pid :=
    field [alert.detectorType.code, alert.flags] _
      (be32 alert.uid ++ be32 alert.count ++ be32 alert.aux ++ alert.name ++ [0, 0])
      (by simp only [serializeContext, List.append_assoc]) rfl rfl
  have uid : ((serializeContext alert).drop 6).take 4 = be32 alert.uid :=
    field ([alert.detectorType.code, alert.flags] ++ be32 alert.pid) _
      (be32 alert.count ++ be32 alert.aux ++ alert.name ++ [0, 0])
      (by simp only [serializeContext, List.append_assoc]) rfl rfl
  have count : ((serializeContext alert).drop 10).take 4 = be32 alert.count :=
    field ([alert.detectorType.code, alert.flags] ++ be32 alert.pid ++ be32 alert.uid) _
      (be32 alert.aux ++ alert.name ++ [0, 0])
      (by simp only [serializeContext, List.append_assoc]) rfl rfl
  have aux : ((serializeContext alert).drop 14).take 4 = be32 alert.aux :=
    field ([alert.detectorType.code, alert.flags] ++ be32 alert.pid ++ be32 alert.uid ++
      be32 alert.count) _ (alert.name ++ [0, 0])
      (by simp only [serializeContext, List.append_assoc]) rfl rfl
  have name : ((serializeContext alert).drop 18).take 12 = alert.name :=
    field ([alert.detectorType.code, alert.flags] ++ be32 alert.pid ++ be32 alert.uid ++
      be32 alert.count ++ be32 alert.aux) _ [0, 0] rfl rfl named.length
  refine ⟨?_, ?_, ?_, ?_, name⟩
  · rw [readUInt32BE, pid, bigEndian_be32]
  · rw [readUInt32BE, uid, bigEndian_be32]
  · rw [readUInt32BE, count, bigEndian_be32]
  · rw [readUInt32BE, aux, bigEndian_be32]

theorem asciiChar_eq_null (byte : UInt8) : Char.ofNat byte.toNat = '\x00' ↔ byte = 0 := by
  have valid : byte.toNat.isValidChar := .inl (Nat.lt_trans byte.toNat_lt (by decide))
  constructor
  · intro same
    have codes := congrArg Char.toNat same
    rw [Char.toNat_ofNat, if_pos valid] at codes
    exact UInt8.toNat_inj.mp codes
  · intro zero
    rw [zero]
    rfl

/-- The text of a name ends where its bytes do. -/
theorem takeWhile_asciiChars (name : List UInt8) :
    (asciiChars name).takeWhile (· ≠ '\x00') = asciiChars (name.takeWhile (· ≠ 0)) := by
  rw [asciiChars, List.takeWhile_map, asciiChars]
  refine congrArg (List.map _) (congrArg (List.takeWhile · name) (funext fun byte => ?_))
  simp [asciiChar_eq_null]

theorem shows_serializeContext (ascii : ReadsAscii runtime) (named : alert.Named)
    (sent : templateText eventId =
      some (toString (sevExtBase + (alert.detectorType.code.toNat - 1)))) :
    ∃ context, decodeHostContext runtime (serializeContext alert) eventId = some context ∧
      Shows context alert := by
  obtain ⟨pid, uid, count, aux, name⟩ := fields_serializeContext named
  have detType : readUInt8 (serializeContext alert) 0 = alert.detectorType.code.toNat := by
    simp [readUInt8, serializeContext, bigEndian]
  have flags : readUInt8 (serializeContext alert) 1 = alert.flags.toNat := by
    simp [readUInt8, serializeContext, bigEndian]
  rw [decodeHostContext, sent]
  simp only [Option.bind_eq_bind, Option.bind_some, not_inherited, if_false,
    lookup_hostDetectorNames, Option.getD_some]
  refine ⟨_, rfl, ?_⟩
  constructor
  · rfl
  · exact detType
  · exact flags
  · exact pid
  · exact uid
  · exact count
  · exact aux
  · intro plain
    rw [name, ascii alert.name plain]
    exact congrArg String.ofList (takeWhile_asciiChars alert.name)

theorem toNat_reportedCount (count : UInt32) :
    (reportedCount count).toNat = max 1 (min 65535 count.toNat) := by
  rw [reportedCount]
  split
  next many =>
    have more : 65535 < count.toNat := UInt32.lt_iff_toNat_lt.mp many
    rw [Nat.min_eq_left (by omega)]
    rfl
  next few =>
    have less : ¬ 65535 < count.toNat := fun more => few (UInt32.lt_iff_toNat_lt.mpr more)
    split
    next zero =>
      rw [zero]
      rfl
    next some =>
      have positive : count.toNat ≠ 0 := fun zero => some (UInt32.toNat_inj.mp zero)
      rw [UInt32.toNat_toUInt16, Nat.mod_eq_of_lt (by omega)]
      omega

/-- Whatever the pipeline raises is reported with a context that the dashboards read back: the
detector by its name, and each field of the alert. -/
theorem raised_shown {probe : Probe} {events : List TimedEvent} (ascii : ReadsAscii runtime)
    (raised : alert ∈ eventPipeline.answers probe events)
    (sent : ∀ report ∈ reportAlert alert,
      templateText eventId = some (toString (sevExtBase + report.sev))) :
    ∃ report context, reportAlert alert = some report ∧
      report.count.toNat = max 1 (min 65535 alert.count.toNat) ∧
      decodeContext runtime (.string (IdsRm.toHex report.context)) eventId =
        some (some (.host context)) ∧
      Shows context alert := by
  have named := named_of_answers raised
  have reported := congrArg (Option.map fun sev =>
    Report.mk sev (serializeContext alert) (reportedCount alert.count))
    (sevForDetector_code alert.detectorType)
  obtain ⟨context, read, shows⟩ := shows_serializeContext ascii named (sent _ reported)
  refine ⟨_, context, reported, toNat_reportedCount alert.count, ?_, shows⟩
  have size := length_serializeContext named
  rw [decodeContext, Runtime.payloadBytes]
  dsimp only
  rw [bufferFromHex_toHex, if_neg (by rw [size]; decide), if_pos size, read]
  rfl

/-- A runtime that reads each byte as a character. -/
def byteRuntime : Runtime where
  utf8ToString := fun bytes => String.ofList (asciiChars bytes)
  bufferFrom := fun _ => none

theorem raised_shown_sample : ∃ report context,
    reportAlert ⟨.rootShell, 0, 7, 0, 1, 2, fillName [115, 104]⟩ = some report ∧
      report.count.toNat = 1 ∧
      decodeContext byteRuntime (.string (IdsRm.toHex report.context))
        (.number (.finite false ⟨[3, 2, 8, 1], by decide, by decide, by decide, by decide⟩ 5)) =
          some (some (.host context)) ∧
      Shows context ⟨.rootShell, 0, 7, 0, 1, 2, fillName [115, 104]⟩ := by
  -- The shell of a listening daemon is raised first.
  refine @raised_shown ⟨.rootShell, 0, 7, 0, 1, 2, fillName [115, 104]⟩ byteRuntime _ probeSample
    [(shellSample, 5)] (fun _ _ => String.toList_ofList) (.tail _ (.head [])) ?_
  intro report reported
  cases reported
  rfl

end Reports

end Idsm.HostProbe
