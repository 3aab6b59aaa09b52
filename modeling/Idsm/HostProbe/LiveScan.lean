import Idsm.HostProbe.Baseline

/-! The live scanner of the host probe and the detectors it feeds: the monitored files and
the table of kernel modules, pass after pass. -/

set_option autoImplicit false

namespace Idsm.HostProbe

open Idsm.Foundation

inductive DetectorType where
  | fileMod
  | newSetuid
  | kmodLoad
  deriving DecidableEq

def DetectorType.code : DetectorType → UInt8
  | .fileMod => 5
  | .newSetuid => 6
  | .kmodLoad => 7

def hfSetuid : UInt8 := 0x01
def hfMissing : UInt8 := 0x04

def fileModHash : UInt32 := 1
def fileModGone : UInt32 := 2

structure FileScanEvent where
  path : List UInt8
  sha256 : List UInt8
  present : Bool
  mode : UInt32
  uid : UInt32
  deriving DecidableEq

inductive HostEvent where
  | fileScan (file : FileScanEvent)
  | moduleScan (name : List UInt8)
  deriving DecidableEq

structure HostAlert where
  detectorType : DetectorType
  flags : UInt8
  pid : UInt32
  uid : UInt32
  count : UInt32
  aux : UInt32
  name : List UInt8
  deriving DecidableEq

/-- The basename in the twelve bytes of the name field. -/
def fillName (s : List UInt8) : List UInt8 :=
  let base := (s.rtakeWhile (· ≠ 47)).take 11
  base ++ List.replicate (12 - base.length) 0

def makeFileAlert (dt : DetectorType) (path : List UInt8) (mode : UInt32) (flags : UInt8)
    (aux : UInt32) : HostAlert where
  detectorType := dt
  flags
  pid := 0
  uid := mode
  count := 1
  aux
  name := fillName path

def makeNameAlert (dt : DetectorType) (name : List UInt8) : HostAlert where
  detectorType := dt
  flags := 0
  pid := 0
  uid := 0
  count := 1
  aux := 0
  name := fillName name

/-- Keys with the time until which their alerts are muted, the newest entry first. -/
abbrev Muted := List (List UInt8 × Nat)

def mutedUntil (muted : Muted) (key : List UInt8) (nowMs : Nat) : Bool :=
  (muted.lookup key).any (nowMs < ·)

structure FileModDetector where
  cooldownMs : UInt32
  baseline : FileBaseline
  muted : Muted

def FileModDetector.feed (detector : FileModDetector) (f : FileScanEvent) (nowMs : Nat) :
    Option HostAlert × FileModDetector :=
  match detector.baseline.lookup f.path with
  | none => (none, detector)
  | some expected =>
      if mutedUntil detector.muted f.path nowMs then (none, detector)
      else
        let mutes := { detector with
          muted := (f.path, nowMs + detector.cooldownMs.toNat) :: detector.muted }
        if !f.present then (some (makeFileAlert .fileMod f.path 0 hfMissing fileModGone), mutes)
        else if f.sha256 ≠ expected then
          (some (makeFileAlert .fileMod f.path f.mode 0 fileModHash), mutes)
        else (none, detector)

structure NewSetuidDetector where
  cooldownMs : UInt32
  baselinePaths : List (List UInt8)
  muted : Muted

/-- A file that runs as root whoever starts it. -/
def FileScanEvent.setuidRoot (f : FileScanEvent) : Bool :=
  f.present && f.mode &&& 0o4000 != 0 && f.uid == 0

def NewSetuidDetector.feed (detector : NewSetuidDetector) (f : FileScanEvent) (nowMs : Nat) :
    Option HostAlert × NewSetuidDetector :=
  if detector.baselinePaths = [] then (none, detector)
  else if !f.setuidRoot then (none, detector)
  else if f.path ∈ detector.baselinePaths then (none, detector)
  else if mutedUntil detector.muted f.path nowMs then (none, detector)
  else
    (some { makeFileAlert .newSetuid f.path f.mode hfSetuid 0 with uid := f.uid },
      { detector with muted := (f.path, nowMs + detector.cooldownMs.toNat) :: detector.muted })

structure KmodLoadDetector where
  cooldownMs : UInt32
  baseline : List (List UInt8)
  muted : Muted

def KmodLoadDetector.feed (detector : KmodLoadDetector) (name : List UInt8) (nowMs : Nat) :
    Option HostAlert × KmodLoadDetector :=
  if detector.baseline = [] ∨ name ∈ detector.baseline then (none, detector)
  else if mutedUntil detector.muted name nowMs then (none, detector)
  else
    (some (makeNameAlert .kmodLoad name),
      { detector with muted := (name, nowMs + detector.cooldownMs.toNat) :: detector.muted })

structure HostProbePipeline where
  fileMod : FileModDetector
  newSetuid : NewSetuidDetector
  kmod : KmodLoadDetector

/-- `feed_event`: the alerts with the pipeline behind the event. -/
def HostProbePipeline.feedEvent (pipeline : HostProbePipeline) (tsMs : Nat) :
    HostEvent → List HostAlert × HostProbePipeline
  | .fileScan file =>
      let (modified, fileMod) := pipeline.fileMod.feed file tsMs
      let (setuid, newSetuid) := pipeline.newSetuid.feed file tsMs
      (modified.toList ++ setuid.toList, { pipeline with fileMod, newSetuid })
  | .moduleScan name =>
      let (loaded, kmod) := pipeline.kmod.feed name tsMs
      (loaded.toList, { pipeline with kmod })

/-- Every alert with the event it was raised for. -/
def HostProbePipeline.feedAll (pipeline : HostProbePipeline) (tsMs : Nat) :
    List HostEvent → List (HostEvent × HostAlert) × HostProbePipeline
  | [] => ([], pipeline)
  | event :: events =>
      let (alerts, next) := pipeline.feedEvent tsMs event
      let (later, last) := next.feedAll tsMs events
      (alerts.map (event, ·) ++ later, last)

/-- What `stat` and the digest say of a file. The digest is missing when the file cannot be
read. -/
structure FileInfo where
  mode : UInt32
  uid : UInt32
  sha256 : Option (List UInt8)

/-- What a pass finds: the lines of `/proc/modules`, where there is one, and the files. -/
structure Pass where
  elapsedMs : Nat
  modules : Option (List (List UInt8))
  stat : List UInt8 → Option FileInfo

/-- The first word of a line. -/
def moduleName (line : List UInt8) : Option (List UInt8) :=
  match (line.dropWhile isSpace).takeWhile (!isSpace ·) with
  | [] => none
  | name => some name

structure ProcScanCapture where
  scanFiles : List (List UInt8)
  knownMods : List (List UInt8)
  primed : Bool

/-- `known_mods` only grows. -/
def scanModules (primed : Bool) : List (List UInt8) → List (List UInt8) →
    List HostEvent × List (List UInt8)
  | known, [] => ([], known)
  | known, line :: lines =>
      match moduleName line with
      | none => scanModules primed known lines
      | some name =>
          if name ∈ known then scanModules primed known lines
          else
            let (events, later) := scanModules primed (name :: known) lines
            (if primed then .moduleScan name :: events else events, later)

def scanFile (stat : List UInt8 → Option FileInfo) (path : List UInt8) : FileScanEvent :=
  match stat path with
  | none => ⟨path, List.replicate 32 0, false, 0, 0⟩
  | some info =>
      ⟨path, info.sha256.getD (List.replicate 32 0), true, info.mode &&& 0o7777, info.uid⟩

/-- One pass of `run`: its events and what the scanner remembers. -/
def ProcScanCapture.pass (scan : ProcScanCapture) (seen : Pass) :
    List HostEvent × ProcScanCapture :=
  let (modules, knownMods) := scanModules scan.primed scan.knownMods (seen.modules.getD [])
  let files := scan.scanFiles.map fun path => .fileScan (scanFile seen.stat path)
  (modules ++ files, { scan with knownMods, primed := true })

structure LiveScan where
  nowMs : Nat
  scan : ProcScanCapture
  pipeline : HostProbePipeline

structure Cooldowns where
  fileMod : UInt32
  newSetuid : UInt32
  kmod : UInt32

/-- `main`: the file baseline is what the scanner visits, and what both file detectors know. -/
def LiveScan.start (cooldowns : Cooldowns) (files : FileBaseline) (modules : List (List UInt8)) :
    LiveScan where
  nowMs := 0
  scan := ⟨files.map Prod.fst, [], false⟩
  pipeline :=
    { fileMod := ⟨cooldowns.fileMod, files, []⟩
      newSetuid := ⟨cooldowns.newSetuid, files.map Prod.fst, []⟩
      kmod := ⟨cooldowns.kmod, modules, []⟩ }

def LiveScan.pass (live : LiveScan) (seen : Pass) : List (HostEvent × HostAlert) × LiveScan :=
  let nowMs := live.nowMs + seen.elapsedMs
  let (events, scan) := live.scan.pass seen
  let (raised, pipeline) := live.pipeline.feedAll nowMs events
  (raised, { nowMs, scan, pipeline })

def LiveScan.after (live : LiveScan) (passes : List Pass) : LiveScan :=
  passes.foldl (fun live seen => (live.pass seen).2) live

end Idsm.HostProbe
