import Idsm.HostProbe.LiveScan
import Idsm.Foundation.Reactors

/-! The whole pipeline of the host probe: executions, scans and snapshots, each with its
detectors. Names are bytes, a `comm` without the NUL that ends it. -/

set_option autoImplicit false

namespace Idsm.HostProbe

open Idsm.Foundation

structure ExecEvent where
  pid : UInt32
  ppid : UInt32
  uid : UInt32
  euid : UInt32
  gid : UInt32
  egid : UInt32
  comm : List UInt8
  parentComm : List UInt8
  exe : List UInt8
  deriving DecidableEq

structure SnapshotEvent where
  zombies : UInt32
  topCpuPid : UInt32
  topCpuUid : UInt32
  topCpuPpm : UInt32
  topCpuComm : List UInt8
  topMemPid : UInt32
  topMemUid : UInt32
  topMemRssKb : UInt64
  topMemComm : List UInt8
  deriving DecidableEq

inductive ProbeEvent where
  | exec (exec : ExecEvent)
  | fileScan (file : FileScanEvent)
  | moduleScan (name : List UInt8)
  | snapshot (snap : SnapshotEvent)
  deriving DecidableEq

/-- An event with its `ts_ms`. -/
abbrev TimedEvent := ProbeEvent × UInt64

/-! Alerts. -/

inductive AlertType where
  | unknownExec
  | privEsc
  | forkFlood
  | revShell
  | fileMod
  | newSetuid
  | kmodLoad
  | zombieStorm
  | resExhaust
  | rootShell
  deriving DecidableEq

def AlertType.code : AlertType → UInt8
  | .unknownExec => 1
  | .privEsc => 2
  | .forkFlood => 3
  | .revShell => 4
  | .fileMod => 5
  | .newSetuid => 6
  | .kmodLoad => 7
  | .zombieStorm => 8
  | .resExhaust => 9
  | .rootShell => 10

def DetectorType.alertType : DetectorType → AlertType
  | .fileMod => .fileMod
  | .newSetuid => .newSetuid
  | .kmodLoad => .kmodLoad

structure ProbeAlert where
  detectorType : AlertType
  flags : UInt8
  pid : UInt32
  uid : UInt32
  count : UInt32
  aux : UInt32
  name : List UInt8
  deriving DecidableEq

/-- What the callback gets of a detector of scans. -/
def HostAlert.probe (a : HostAlert) : ProbeAlert :=
  ⟨a.detectorType.alertType, a.flags, a.pid, a.uid, a.count, a.aux, a.name⟩

def hfSetgid : UInt8 := 0x02
def hfNetParent : UInt8 := 0x08

def resExhaustCpu : UInt32 := 1
def resExhaustMem : UInt32 := 2

def rootShellTty : UInt32 := 1
def rootShellNet : UInt32 := 2

def makeExecAlert (dt : AlertType) (e : ExecEvent) (flags : UInt8) (aux : UInt32) :
    ProbeAlert where
  detectorType := dt
  flags
  pid := e.pid
  uid := e.uid
  count := 1
  aux
  name := fillName (if e.comm = [] then e.exe else e.comm)

def makeSnapAlert (dt : AlertType) (s : SnapshotEvent) (aux : UInt32) : ProbeAlert :=
  if aux = resExhaustMem then
    ⟨dt, 0, s.topMemPid, s.topMemUid, 1, aux, fillName s.topMemComm⟩
  else ⟨dt, 0, s.topCpuPid, s.topCpuUid, 1, aux, fillName s.topCpuComm⟩

/-- An alert about a number of events and no process. -/
def countAlert (dt : AlertType) (count : UInt32) : ProbeAlert :=
  ⟨dt, 0, 0, 0, count, count, List.replicate 12 0⟩

/-! Detectors whose alerts mute their key. -/

def baseName (path : List UInt8) : List UInt8 := path.rtakeWhile (· ≠ 47)

def alertKey (e : ExecEvent) : List UInt8 := if e.exe = [] then e.comm else e.exe

/-- The names of shells. -/
def shells : List (List UInt8) :=
  [[115, 104], [98, 97, 115, 104], [97, 115, 104], [100, 97, 115, 104], [122, 115, 104],
    [107, 115, 104], [109, 107, 115, 104], [116, 111, 121, 115, 104], [99, 115, 104],
    [116, 99, 115, 104], [102, 105, 115, 104]]

def isShellComm (comm : List UInt8) : Bool := shells.contains comm

/-- What is due under a key is raised unless the key is muted, and mutes it. -/
def raiseOnce (cooldownMs : UInt32) (muted : Muted) (due : Option (List UInt8 × ProbeAlert))
    (nowMs : UInt64) : Option ProbeAlert × Muted :=
  match due with
  | none => (none, muted)
  | some (key, alert) =>
      if mutedUntil muted key nowMs.toNat then (none, muted)
      else (some alert, (key, (nowMs + cooldownMs.toUInt64).toNat) :: muted)

structure UnknownExecDetector where
  cooldownMs : UInt32 := 60000
  exact : List (List UInt8)
  base : List (List UInt8)
  muted : Muted

namespace UnknownExecDetector

/-- A path is allowed as it is, and a name without a slash wherever it lies. -/
def addAllowed (detector : UnknownExecDetector) (entry : List UInt8) : UnknownExecDetector :=
  if entry.contains 47 then { detector with exact := entry :: detector.exact }
  else { detector with base := entry :: detector.base }

def enabled (detector : UnknownExecDetector) : Bool :=
  !detector.exact.isEmpty || !detector.base.isEmpty

def isAllowed (detector : UnknownExecDetector) (e : ExecEvent) : Bool :=
  !e.exe.isEmpty && (detector.exact.contains e.exe || detector.base.contains (baseName e.exe)) ||
    detector.base.contains e.comm

def due (detector : UnknownExecDetector) (e : ExecEvent) : Option (List UInt8 × ProbeAlert) :=
  if !detector.enabled || detector.isAllowed e then none
  else some (alertKey e, makeExecAlert .unknownExec e 0 0)

def feed (detector : UnknownExecDetector) (e : ExecEvent) (nowMs : UInt64) :
    Option ProbeAlert × UnknownExecDetector :=
  let (alert, muted) := raiseOnce detector.cooldownMs detector.muted (detector.due e) nowMs
  (alert, { detector with muted })

end UnknownExecDetector

structure PrivEscDetector where
  cooldownMs : UInt32 := 60000
  muted : Muted

/-- Root by the file it runs, for a user who is not. -/
def PrivEscDetector.due (e : ExecEvent) : Option (List UInt8 × ProbeAlert) :=
  if e.euid ≠ 0 ∨ e.uid = 0 then none
  else
    let flags := if e.egid = 0 ∧ e.gid ≠ 0 then hfSetuid ||| hfSetgid else hfSetuid
    some (alertKey e, makeExecAlert .privEsc e flags 0)

def PrivEscDetector.feed (detector : PrivEscDetector) (e : ExecEvent) (nowMs : UInt64) :
    Option ProbeAlert × PrivEscDetector :=
  let (alert, muted) := raiseOnce detector.cooldownMs detector.muted (PrivEscDetector.due e) nowMs
  (alert, { detector with muted })

/-- The daemons that listen by default. -/
def defaultNetParents : List (List UInt8) :=
  [[97, 100, 98, 100], [115, 115, 104, 100], [100, 114, 111, 112, 98, 101, 97, 114],
    [110, 101, 116, 100], [114, 105, 108, 100], [104, 116, 116, 112, 100],
    [110, 103, 105, 110, 120], [108, 105, 103, 104, 116, 116, 112, 100],
    [105, 110, 101, 116, 100], [120, 105, 110, 101, 116, 100], [102, 116, 112, 100],
    [118, 115, 102, 116, 112, 100], [112, 114, 111, 102, 116, 112, 100],
    [116, 101, 108, 110, 101, 116, 100], [115, 109, 98, 100]]

structure RevShellDetector where
  cooldownMs : UInt32 := 60000
  netParents : List (List UInt8) := defaultNetParents
  muted : Muted

def RevShellDetector.addNetParent (detector : RevShellDetector) (comm : List UInt8) :
    RevShellDetector :=
  { detector with netParents := comm :: detector.netParents }

/-- A shell that a listening daemon started. -/
def RevShellDetector.due (detector : RevShellDetector) (e : ExecEvent) :
    Option (List UInt8 × ProbeAlert) :=
  if !isShellComm e.comm then none
  else if e.parentComm.isEmpty || !detector.netParents.contains e.parentComm then none
  else some (e.parentComm, makeExecAlert .revShell e hfNetParent e.ppid)

def RevShellDetector.feed (detector : RevShellDetector) (e : ExecEvent) (nowMs : UInt64) :
    Option ProbeAlert × RevShellDetector :=
  let (alert, muted) := raiseOnce detector.cooldownMs detector.muted (detector.due e) nowMs
  (alert, { detector with muted })

structure RootShellDetector where
  cooldownMs : UInt32 := 60000
  muted : Muted

/-- The parents of a shell that someone logged in for. -/
def loginParents : List (List UInt8) :=
  [[115, 115, 104, 100], [97, 100, 98, 100], [100, 114, 111, 112, 98, 101, 97, 114],
    [116, 101, 108, 110, 101, 116, 100]]

def RootShellDetector.due (e : ExecEvent) : Option (List UInt8 × ProbeAlert) :=
  if e.uid ≠ 0 ∨ !isShellComm e.comm then none
  else
    let net := loginParents.contains e.parentComm
    some (e.comm, makeExecAlert .rootShell e 0 (if net then rootShellNet else rootShellTty))

def RootShellDetector.feed (detector : RootShellDetector) (e : ExecEvent) (nowMs : UInt64) :
    Option ProbeAlert × RootShellDetector :=
  let (alert, muted) :=
    raiseOnce detector.cooldownMs detector.muted (RootShellDetector.due e) nowMs
  (alert, { detector with muted })

structure ResExhaustDetector where
  cpuPpmThreshold : UInt32 := 900
  rssKbThreshold : UInt64 := 1048576
  cooldownMs : UInt32 := 60000
  mutedUntil : UInt64

/-- One mute for both resources. -/
def ResExhaustDetector.feed (detector : ResExhaustDetector) (s : SnapshotEvent)
    (nowMs : UInt64) : Option ProbeAlert × ResExhaustDetector :=
  if nowMs < detector.mutedUntil then (none, detector)
  else
    let mutes := { detector with mutedUntil := nowMs + detector.cooldownMs.toUInt64 }
    if detector.cpuPpmThreshold ≤ s.topCpuPpm then
      (some (makeSnapAlert .resExhaust s resExhaustCpu), mutes)
    else if detector.rssKbThreshold ≤ s.topMemRssKb then
      (some (makeSnapAlert .resExhaust s resExhaustMem), mutes)
    else (none, detector)

/-! Detectors that count in windows. -/

structure ForkFloodDetector where
  windowMs : UInt32 := 1000
  spawnThreshold : UInt32 := 200
  started : Bool
  windowStart : UInt64
  count : UInt32
  alerted : Bool

/-- The window that an execution falls into, without it. -/
def ForkFloodDetector.enter (detector : ForkFloodDetector) (nowMs : UInt64) :
    ForkFloodDetector :=
  let detector := if detector.started then detector
    else { detector with started := true, windowStart := nowMs }
  if detector.windowMs.toUInt64 ≤ nowMs - detector.windowStart then
    { detector with windowStart := nowMs, count := 0, alerted := false }
  else detector

def ForkFloodDetector.feed (detector : ForkFloodDetector) (nowMs : UInt64) :
    Option ProbeAlert × ForkFloodDetector :=
  let detector := detector.enter nowMs
  let count := detector.count + 1
  if !detector.alerted && detector.spawnThreshold ≤ count then
    (some (countAlert .forkFlood count), { detector with count, alerted := true })
  else (none, { detector with count })

structure ZombieStormDetector where
  windowMs : UInt32 := 1000
  zombieThreshold : UInt32 := 100
  started : Bool
  windowStart : UInt64
  maxZombies : UInt32
  alerted : Bool

def ZombieStormDetector.enter (detector : ZombieStormDetector) (nowMs : UInt64) :
    ZombieStormDetector :=
  let detector := if detector.started then detector
    else { detector with started := true, windowStart := nowMs }
  if detector.windowMs.toUInt64 ≤ nowMs - detector.windowStart then
    { detector with windowStart := nowMs, maxZombies := 0, alerted := false }
  else detector

def ZombieStormDetector.feed (detector : ZombieStormDetector) (s : SnapshotEvent)
    (nowMs : UInt64) : Option ProbeAlert × ZombieStormDetector :=
  let detector := detector.enter nowMs
  let maxZombies := if detector.maxZombies < s.zombies then s.zombies else detector.maxZombies
  if !detector.alerted && detector.zombieThreshold ≤ maxZombies then
    (some (countAlert .zombieStorm maxZombies), { detector with maxZombies, alerted := true })
  else (none, { detector with maxZombies })

/-! The pipeline. -/

structure Probe where
  unknownExec : UnknownExecDetector
  privEsc : PrivEscDetector
  forkFlood : ForkFloodDetector
  revShell : RevShellDetector
  fileMod : FileModDetector
  newSetuid : NewSetuidDetector
  kmod : KmodLoadDetector
  zombie : ZombieStormDetector
  res : ResExhaustDetector
  rootShell : RootShellDetector

namespace Probe

def feedExec (probe : Probe) (e : ExecEvent) (tsMs : UInt64) : List ProbeAlert × Probe :=
  let (unknown, unknownExec) := probe.unknownExec.feed e tsMs
  let (risen, privEsc) := probe.privEsc.feed e tsMs
  let (flood, forkFlood) := probe.forkFlood.feed tsMs
  let (remote, revShell) := probe.revShell.feed e tsMs
  let (root, rootShell) := probe.rootShell.feed e tsMs
  (unknown.toList ++ risen.toList ++ flood.toList ++ remote.toList ++ root.toList,
    { probe with unknownExec, privEsc, forkFlood, revShell, rootShell })

/-- `feed_event`: the alerts in their order, and the pipeline behind the event. -/
def feedEvent (probe : Probe) (event : TimedEvent) : List ProbeAlert × Probe :=
  match event.1 with
  | .exec e => probe.feedExec e event.2
  | .fileScan file =>
      let (modified, fileMod) := probe.fileMod.feed file event.2.toNat
      let (setuid, newSetuid) := probe.newSetuid.feed file event.2.toNat
      ((modified.toList ++ setuid.toList).map HostAlert.probe, { probe with fileMod, newSetuid })
  | .moduleScan name =>
      let (loaded, kmod) := probe.kmod.feed name event.2.toNat
      (loaded.toList.map HostAlert.probe, { probe with kmod })
  | .snapshot s =>
      let (storm, zombie) := probe.zombie.feed s event.2
      let (exhausted, res) := probe.res.feed s event.2
      (storm.toList ++ exhausted.toList, { probe with zombie, res })

end Probe

/-- What the capture feeds, one event at a time. -/
def eventPipeline : Reactor Probe TimedEvent ProbeAlert :=
  ⟨fun probe event => ((probe.feedEvent event).2, (probe.feedEvent event).1)⟩

end Idsm.HostProbe
