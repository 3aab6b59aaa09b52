import Idsm.HostProbe.PipelineProperties
import Idsm.Foundation.Latches

/-! When the detectors of the host probe raise their alerts: with a mute, what is due under a key
that was quiet for a cooldown; with a window, the event that completes a storm. -/

set_option autoImplicit false

namespace Idsm.HostProbe

open Idsm.Foundation

section Due

def FileModDetector.due (detector : FileModDetector) (f : FileScanEvent) :
    Option (List UInt8 × HostAlert) :=
  (detector.baseline.lookup f.path).bind fun expected =>
    if !f.present then some (f.path, makeFileAlert .fileMod f.path 0 hfMissing fileModGone)
    else if f.sha256 ≠ expected then
      some (f.path, makeFileAlert .fileMod f.path f.mode 0 fileModHash)
    else none

def NewSetuidDetector.due (detector : NewSetuidDetector) (f : FileScanEvent) :
    Option (List UInt8 × HostAlert) :=
  if !detector.baselinePaths.isEmpty && f.setuidRoot &&
      !detector.baselinePaths.contains f.path then
    some (f.path, { makeFileAlert .newSetuid f.path f.mode hfSetuid 0 with uid := f.uid })
  else none

def KmodLoadDetector.due (detector : KmodLoadDetector) (name : List UInt8) :
    Option (List UInt8 × HostAlert) :=
  if detector.baseline.isEmpty || detector.baseline.contains name then none
  else some (name, makeNameAlert .kmodLoad name)

def ResExhaustDetector.due (detector : ResExhaustDetector) (s : SnapshotEvent) :
    Option (List UInt8 × ProbeAlert) :=
  if detector.cpuPpmThreshold ≤ s.topCpuPpm then
    some ([], makeSnapAlert .resExhaust s resExhaustCpu)
  else if detector.rssKbThreshold ≤ s.topMemRssKb then
    some ([], makeSnapAlert .resExhaust s resExhaustMem)
  else none

theorem FileModDetector.due_type {detector : FileModDetector} {f : FileScanEvent}
    {keyed : List UInt8 × HostAlert} (due : detector.due f = some keyed) :
    keyed.2.detectorType = .fileMod := by
  obtain ⟨expected, _, found⟩ := Option.bind_eq_some_iff.mp due
  split_ifs at found <;> cases found <;> rfl

theorem NewSetuidDetector.due_type {detector : NewSetuidDetector} {f : FileScanEvent}
    {keyed : List UInt8 × HostAlert} (due : detector.due f = some keyed) :
    keyed.2.detectorType = .newSetuid := by
  rw [NewSetuidDetector.due] at due
  split_ifs at due
  cases due
  rfl

theorem KmodLoadDetector.due_type {detector : KmodLoadDetector} {name : List UInt8}
    {keyed : List UInt8 × HostAlert} (due : detector.due name = some keyed) :
    keyed.2.detectorType = .kmodLoad := by
  rw [KmodLoadDetector.due] at due
  split_ifs at due
  cases due
  rfl

theorem ResExhaustDetector.due_type {detector : ResExhaustDetector} {s : SnapshotEvent}
    {keyed : List UInt8 × ProbeAlert} (due : detector.due s = some keyed) :
    keyed.2.detectorType = .resExhaust := by
  rw [ResExhaustDetector.due] at due
  split_ifs at due <;> cases due <;> exact makeSnapAlert_type _ _

/-- What is due at an event, with the key that it mutes. -/
def Probe.due (probe : Probe) (type : AlertType) (event : TimedEvent) :
    Option (List UInt8 × ProbeAlert) :=
  match type, event.1 with
  | .unknownExec, .exec e => probe.unknownExec.due e
  | .privEsc, .exec e => PrivEscDetector.due e
  | .revShell, .exec e => probe.revShell.due e
  | .rootShell, .exec e => RootShellDetector.due e
  | .fileMod, .fileScan f => (probe.fileMod.due f).map (.map id HostAlert.probe)
  | .newSetuid, .fileScan f => (probe.newSetuid.due f).map (.map id HostAlert.probe)
  | .kmodLoad, .moduleScan name => (probe.kmod.due name).map (.map id HostAlert.probe)
  | .resExhaust, .snapshot s => probe.res.due s
  | _, _ => none

def Probe.cooldown (probe : Probe) : AlertType → UInt32
  | .unknownExec => probe.unknownExec.cooldownMs
  | .privEsc => probe.privEsc.cooldownMs
  | .revShell => probe.revShell.cooldownMs
  | .fileMod => probe.fileMod.cooldownMs
  | .newSetuid => probe.newSetuid.cooldownMs
  | .kmodLoad => probe.kmod.cooldownMs
  | .resExhaust => probe.res.cooldownMs
  | .rootShell => probe.rootShell.cooldownMs
  | .forkFlood => 0
  | .zombieStorm => 0

def Probe.muter (probe : Probe) (type : AlertType) : Muter TimedEvent (List UInt8) ProbeAlert :=
  ⟨fun event => event.2.toNat, (probe.cooldown type).toNat, probe.due type⟩

/-- The detectors with a mute. -/
def AlertType.mutes (type : AlertType) : Prop := type ≠ .forkFlood ∧ type ≠ .zombieStorm

/-- The detectors as they are constructed: none is mute, and no window is open. -/
structure Probe.Fresh (probe : Probe) : Prop where
  unknownExec : probe.unknownExec.muted = []
  privEsc : probe.privEsc.muted = []
  forkFlood : probe.forkFlood.started = false ∧ probe.forkFlood.count = 0 ∧
    probe.forkFlood.alerted = false
  revShell : probe.revShell.muted = []
  fileMod : probe.fileMod.muted = []
  newSetuid : probe.newSetuid.muted = []
  kmod : probe.kmod.muted = []
  zombie : probe.zombie.started = false ∧ probe.zombie.maxZombies = 0 ∧
    probe.zombie.alerted = false
  res : probe.res.mutedUntil = 0
  rootShell : probe.rootShell.muted = []

end Due

section Related

variable {probe : Probe} {event : TimedEvent} {muted : Muted}

/-- A detector that is as it was but for what it mutes. -/
def Probe.Mutes (probe : Probe) : (type : AlertType) → type.State → Muted → Prop
  | .unknownExec, detector, muted => detector = { probe.unknownExec with muted }
  | .privEsc, detector, muted => detector = { probe.privEsc with muted }
  | .revShell, detector, muted => detector = { probe.revShell with muted }
  | .fileMod, detector, muted => detector = { probe.fileMod with muted }
  | .newSetuid, detector, muted => detector = { probe.newSetuid with muted }
  | .kmodLoad, detector, muted => detector = { probe.kmod with muted }
  | .rootShell, detector, muted => detector = { probe.rootShell with muted }
  | .resExhaust, detector, muted => detector = { probe.res with
      mutedUntil := .ofNat ((muted.lookup []).getD 0) } ∧ (muted.lookup []).getD 0 < 2 ^ 64
  | .forkFlood, _, _ => True
  | .zombieStorm, _, _ => True

theorem react_raiseOnce {type : AlertType}
    (fits : event.2.toNat + (probe.cooldown type).toNat < 2 ^ 64) :
    (probe.muter type).reactor.react muted event =
      ((raiseOnce (probe.cooldown type) muted (probe.due type event) event.2).2,
        (raiseOnce (probe.cooldown type) muted (probe.due type event) event.2).1.toList) := by
  have sum : (event.2 + (probe.cooldown type).toUInt64).toNat =
      event.2.toNat + (probe.cooldown type).toNat := by
    rw [UInt64.toNat_add, UInt32.toNat_toUInt64, Nat.mod_eq_of_lt fits]
  cases due : probe.due type event with
  | none => exact Muter.react_quiet due muted
  | some keyed =>
      obtain ⟨key, alert⟩ := keyed
      cases mute : mutedUntil muted key event.2.toNat with
      | true =>
          rw [raiseOnce, mute]
          exact Muter.react_muted due mute
      | false =>
          rw [raiseOnce, mute, sum]
          exact Muter.react_loud due mute

/-- What the detectors of scans have in common. -/
def scanOnce (cooldownMs : UInt32) (muted : Muted) (due : Option (List UInt8 × HostAlert))
    (nowMs : Nat) : Option HostAlert × Muted :=
  match due with
  | none => (none, muted)
  | some (key, alert) =>
      if mutedUntil muted key nowMs then (none, muted)
      else (some alert, (key, nowMs + cooldownMs.toNat) :: muted)

theorem FileModDetector.feed_due (detector : FileModDetector) (f : FileScanEvent) (nowMs : Nat) :
    detector.feed f nowMs =
      ((scanOnce detector.cooldownMs detector.muted (detector.due f) nowMs).1,
        { detector with
          muted := (scanOnce detector.cooldownMs detector.muted (detector.due f) nowMs).2 }) := by
  rw [FileModDetector.feed, FileModDetector.due]
  cases detector.baseline.lookup f.path with
  | none => rfl
  | some expected =>
      cases mute : mutedUntil detector.muted f.path nowMs <;> cases f.present <;>
        by_cases same : f.sha256 = expected <;> simp [scanOnce, mute, same]

theorem NewSetuidDetector.feed_due (detector : NewSetuidDetector) (f : FileScanEvent)
    (nowMs : Nat) : detector.feed f nowMs =
      ((scanOnce detector.cooldownMs detector.muted (detector.due f) nowMs).1,
        { detector with
          muted := (scanOnce detector.cooldownMs detector.muted (detector.due f) nowMs).2 }) := by
  rw [NewSetuidDetector.feed, NewSetuidDetector.due]
  by_cases enabled : detector.baselinePaths = []
  · have quiet : (!detector.baselinePaths.isEmpty && f.setuidRoot &&
        !detector.baselinePaths.contains f.path) = false := by simp [enabled]
    rw [if_pos enabled, quiet]
    rfl
  · cases mute : mutedUntil detector.muted f.path nowMs <;> cases f.setuidRoot <;>
      by_cases known : f.path ∈ detector.baselinePaths <;> simp [scanOnce, enabled, known, mute]

theorem KmodLoadDetector.feed_due (detector : KmodLoadDetector) (name : List UInt8)
    (nowMs : Nat) : detector.feed name nowMs =
      ((scanOnce detector.cooldownMs detector.muted (detector.due name) nowMs).1,
        { detector with
          muted := (scanOnce detector.cooldownMs detector.muted (detector.due name) nowMs).2 }) := by
  rw [KmodLoadDetector.feed, KmodLoadDetector.due]
  by_cases known : detector.baseline = [] ∨ name ∈ detector.baseline
  · have quiet : (detector.baseline.isEmpty || detector.baseline.contains name) = true := by
      simpa using known
    rw [if_pos known, quiet]
    rfl
  · have loud : (detector.baseline.isEmpty || detector.baseline.contains name) = false := by
      simpa using known
    rw [if_neg known, loud]
    cases mute : mutedUntil detector.muted name nowMs <;> simp [scanOnce, mute]

/-- The mute of a detector of scans. -/
theorem react_scanned {type : AlertType} {due : Option (List UInt8 × HostAlert)}
    (same : probe.due type event = due.map (.map id HostAlert.probe)) :
    (probe.muter type).reactor.react muted event =
      ((scanOnce (probe.cooldown type) muted due event.2.toNat).2,
        (scanOnce (probe.cooldown type) muted due event.2.toNat).1.toList.map
          HostAlert.probe) := by
  cases due with
  | none => exact Muter.react_quiet same muted
  | some keyed =>
      obtain ⟨key, alert⟩ := keyed
      cases mute : mutedUntil muted key event.2.toNat with
      | true =>
          simp only [scanOnce, mute]
          exact Muter.react_muted same mute
      | false =>
          simp only [scanOnce, mute]
          exact Muter.react_loud same mute

theorem ResExhaustDetector.feed_due (detector : ResExhaustDetector) (s : SnapshotEvent)
    (nowMs : UInt64) : detector.feed s nowMs =
      if nowMs < detector.mutedUntil then (none, detector)
      else ((detector.due s).map Prod.snd, if (detector.due s).isSome then
        { detector with mutedUntil := nowMs + detector.cooldownMs.toUInt64 } else detector) := by
  rw [ResExhaustDetector.feed, ResExhaustDetector.due]
  split_ifs <;> first | rfl | contradiction

theorem ResExhaustDetector.due_key {detector : ResExhaustDetector} {s : SnapshotEvent}
    {key : List UInt8} {alert : ProbeAlert} (due : detector.due s = some (key, alert)) :
    key = [] := by
  rw [ResExhaustDetector.due] at due
  split_ifs at due <;> cases due <;> rfl

theorem resExhaust_step {s : SnapshotEvent} {tsMs : UInt64}
    (fits : tsMs.toNat + probe.res.cooldownMs.toNat < 2 ^ 64) {detector : ResExhaustDetector}
    (related : probe.Mutes .resExhaust detector muted) :
    probe.Mutes .resExhaust (detector.feed s tsMs).2
        ((probe.muter .resExhaust).reactor.react muted (.snapshot s, tsMs)).1 ∧
      (detector.feed s tsMs).1.toList =
        ((probe.muter .resExhaust).reactor.react muted (.snapshot s, tsMs)).2 := by
  obtain ⟨same, small⟩ := related
  have mute : tsMs < detector.mutedUntil ↔ (muted.lookup []).any (tsMs.toNat < ·) = true := by
    rw [same, UInt64.lt_iff_toNat_lt, UInt64.toNat_ofNat_of_lt' small]
    cases muted.lookup [] <;> simp
  have alike : detector.due s = probe.due .resExhaust (.snapshot s, tsMs) := by
    rw [same]
    rfl
  rw [ResExhaustDetector.feed_due, alike]
  cases due : probe.due .resExhaust (.snapshot s, tsMs) with
  | none =>
      rw [show (probe.muter .resExhaust).reactor.react muted (.snapshot s, tsMs) = (muted, [])
        from Muter.react_quiet due muted]
      split <;> exact ⟨⟨same, small⟩, rfl⟩
  | some keyed =>
      obtain ⟨key, alert⟩ := keyed
      have global : key = [] := ResExhaustDetector.due_key (alike.trans due)
      subst global
      cases quiet : (muted.lookup []).any (tsMs.toNat < ·) with
      | true =>
          rw [if_pos (mute.mpr quiet)]
          rw [show (probe.muter .resExhaust).reactor.react muted (.snapshot s, tsMs) = (muted, [])
            from Muter.react_muted due quiet]
          exact ⟨⟨same, small⟩, rfl⟩
      | false =>
          rw [if_neg (by rw [mute, quiet]; exact Bool.false_ne_true)]
          rw [show (probe.muter .resExhaust).reactor.react muted (.snapshot s, tsMs) =
            (([], tsMs.toNat + probe.res.cooldownMs.toNat) :: muted, [alert])
            from Muter.react_loud due quiet]
          have rest : tsMs + probe.res.cooldownMs.toUInt64 =
              .ofNat (tsMs.toNat + probe.res.cooldownMs.toNat) := by
            rw [UInt64.ofNat_add, UInt64.ofNat_toNat, UInt64.ofNat_uInt32ToNat]
          refine ⟨⟨?_, fits⟩, rfl⟩
          subst same
          exact congrArg (fun mutedUntil => { probe.res with mutedUntil }) rest

theorem mutes_step {type : AlertType} (mutes : type.mutes)
    (fits : event.2.toNat + (probe.cooldown type).toNat < 2 ^ 64) {detector : type.State}
    (related : probe.Mutes type detector muted) :
    probe.Mutes type ((alone type).react detector event).1
        ((probe.muter type).reactor.react muted event).1 ∧
      ((alone type).react detector event).2 =
        ((probe.muter type).reactor.react muted event).2 := by
  obtain ⟨event, tsMs⟩ := event
  cases type with
  | unknownExec =>
      cases related
      rw [react_raiseOnce fits]
      cases event <;> exact ⟨rfl, rfl⟩
  | privEsc =>
      cases related
      rw [react_raiseOnce fits]
      cases event <;> exact ⟨rfl, rfl⟩
  | revShell =>
      cases related
      rw [react_raiseOnce fits]
      cases event <;> exact ⟨rfl, rfl⟩
  | rootShell =>
      cases related
      rw [react_raiseOnce fits]
      cases event <;> exact ⟨rfl, rfl⟩
  | fileMod =>
      cases related
      cases event with
      | fileScan f =>
          rw [@react_scanned probe (.fileScan f, tsMs) muted .fileMod (probe.fileMod.due f) rfl]
          simp only [alone, onFileScan, FileModDetector.feed_due]
          exact ⟨rfl, rfl⟩
      | _ => exact ⟨rfl, rfl⟩
  | newSetuid =>
      cases related
      cases event with
      | fileScan f =>
          rw [@react_scanned probe (.fileScan f, tsMs) muted .newSetuid (probe.newSetuid.due f) rfl]
          simp only [alone, onFileScan, NewSetuidDetector.feed_due]
          exact ⟨rfl, rfl⟩
      | _ => exact ⟨rfl, rfl⟩
  | kmodLoad =>
      cases related
      cases event with
      | moduleScan name =>
          rw [@react_scanned probe (.moduleScan name, tsMs) muted .kmodLoad (probe.kmod.due name)
            rfl]
          simp only [alone, onModuleScan, KmodLoadDetector.feed_due]
          exact ⟨rfl, rfl⟩
      | _ => exact ⟨rfl, rfl⟩
  | resExhaust =>
      cases event with
      | snapshot s => exact resExhaust_step fits related
      | _ => exact ⟨related, rfl⟩
  | forkFlood => exact absurd rfl mutes.1
  | zombieStorm => exact absurd rfl mutes.2

theorem Probe.Fresh.mutes (fresh : probe.Fresh) (type : AlertType) :
    probe.Mutes type (probe.share type) [] := by
  cases type with
  | unknownExec => exact congrArg (fun muted => { probe.unknownExec with muted }) fresh.unknownExec
  | privEsc => exact congrArg (fun muted => { probe.privEsc with muted }) fresh.privEsc
  | forkFlood => trivial
  | revShell => exact congrArg (fun muted => { probe.revShell with muted }) fresh.revShell
  | fileMod => exact congrArg (fun muted => { probe.fileMod with muted }) fresh.fileMod
  | newSetuid => exact congrArg (fun muted => { probe.newSetuid with muted }) fresh.newSetuid
  | kmodLoad => exact congrArg (fun muted => { probe.kmod with muted }) fresh.kmod
  | zombieStorm => trivial
  | resExhaust =>
      exact ⟨congrArg (fun mutedUntil => { probe.res with mutedUntil }) fresh.res, Nat.two_pow_pos 64⟩
  | rootShell => exact congrArg (fun muted => { probe.rootShell with muted }) fresh.rootShell

end Related

section Runs

variable {probe : Probe} {before : List TimedEvent} {event : TimedEvent} {type : AlertType}
  {alert : ProbeAlert}

/-- What an event raises behind a run. -/
def raises (probe : Probe) (before : List TimedEvent) (event : TimedEvent) : List ProbeAlert :=
  (eventPipeline.react (eventPipeline.after probe before) event).2

theorem mem_raises (type : AlertType) :
    (alert ∈ raises probe before event ∧ alert.detectorType = type) ↔
      alert ∈ ((alone type).react ((alone type).after (probe.share type) before) event).2 := by
  rw [← mem_labelled, raises]
  have alike := (stage type).react_pick probe before event
  rw [routed_stage] at alike
  exact iff_of_eq (congrArg (alert ∈ ·) (alike.trans Reactor.answers_singleton))

theorem mem_raises_muter (mutes : type.mutes) (fresh : probe.Fresh)
    (fit : ∀ member ∈ before ++ [event],
      member.2.toNat + (probe.cooldown type).toNat < 2 ^ 64) :
    (alert ∈ raises probe before event ∧ alert.detectorType = type) ↔
      alert ∈ ((probe.muter type).reactor.react ((probe.muter type).reactor.after [] before)
        event).2 := by
  obtain ⟨related, _⟩ := Reactor.answers_eq_of_related (fresh.mutes type)
    fun member place detector muted => @mutes_step probe member muted type mutes
      (fit member (List.mem_append_left _ place)) detector
  have last := fit event (List.mem_append_right _ (List.mem_singleton.mpr rfl))
  rw [mem_raises, (mutes_step mutes last related).2]

theorem due_type {key : List UInt8} (due : probe.due type event = some (key, alert)) :
    alert.detectorType = type := by
  obtain ⟨event, tsMs⟩ := event
  cases type <;> cases event <;> try cases due
  next e => exact UnknownExecDetector.due_type due
  next e => exact PrivEscDetector.due_type due
  next e => exact RevShellDetector.due_type due
  next f =>
    obtain ⟨keyed, found, same⟩ := Option.map_eq_some_iff.mp due
    cases same
    exact congrArg DetectorType.alertType (FileModDetector.due_type found)
  next f =>
    obtain ⟨keyed, found, same⟩ := Option.map_eq_some_iff.mp due
    cases same
    exact congrArg DetectorType.alertType (NewSetuidDetector.due_type found)
  next name =>
    obtain ⟨keyed, found, same⟩ := Option.map_eq_some_iff.mp due
    cases same
    exact congrArg DetectorType.alertType (KmodLoadDetector.due_type found)
  next s => exact ResExhaustDetector.due_type due
  next e => exact RootShellDetector.due_type due

/-- A detector with a mute raises an alert exactly if it is due under a key that it raised nothing
under for a cooldown. -/
theorem muted_reported_iff (mutes : type ≠ .forkFlood ∧ type ≠ .zombieStorm)
    (fresh : probe.Fresh)
    (inOrder : (before ++ [event]).Pairwise fun first second => first.2 ≤ second.2)
    (fit : ∀ member ∈ before ++ [event],
      member.2.toNat + (probe.cooldown type).toNat < 2 ^ 64) :
    (alert ∈ raises probe before event ∧ alert.detectorType = type) ↔
      ∃ key, probe.due type event = some (key, alert) ∧
        ∀ prior earlier later, before = prior ++ earlier :: later →
          ∀ other ∈ raises probe prior earlier, probe.due type earlier = some (key, other) →
            earlier.2.toNat + (probe.cooldown type).toNat ≤ event.2.toNat := by
  have order : (before ++ [event]).Pairwise fun first second =>
      (probe.muter type).time first ≤ (probe.muter type).time second :=
    inOrder.imp UInt64.le_iff_toNat_le.mp
  rw [mem_raises_muter mutes fresh fit, Muter.raises_iff order]
  refine exists_congr fun key => and_congr_right fun _ => forall_congr' fun prior =>
    forall_congr' fun earlier => forall_congr' fun later => forall_congr' fun split =>
    forall_congr' fun other => ?_
  have front : ∀ member ∈ prior ++ [earlier],
      member.2.toNat + (probe.cooldown type).toNat < 2 ^ 64 := by
    intro member place
    refine fit member (List.mem_append_left _ ?_)
    rw [split, ← List.singleton_append, ← List.append_assoc]
    exact List.mem_append_left _ place
  rw [← mem_raises_muter mutes fresh front]
  constructor
  · intro quiet raised due
    exact quiet ⟨raised, due_type due⟩ due
  · intro quiet raised due
    exact quiet raised.1 due

/-- A root shell of someone who logged in, again after the cooldown. -/
def shellSample : ProbeEvent := .exec ⟨7, 1, 0, 0, 0, 0, [115, 104], [115, 115, 104, 100], []⟩

def probeSample : Probe where
  unknownExec := ⟨60000, [], [], []⟩
  privEsc := ⟨60000, []⟩
  forkFlood := ⟨1000, 200, false, 0, 0, false⟩
  revShell := ⟨60000, defaultNetParents, []⟩
  fileMod := ⟨600000, [], []⟩
  newSetuid := ⟨600000, [], []⟩
  kmod := ⟨60000, [], []⟩
  zombie := ⟨1000, 100, false, 0, 0, false⟩
  res := ⟨900, 1048576, 60000, 0⟩
  rootShell := ⟨60000, []⟩

theorem probeSample_fresh : probeSample.Fresh :=
  ⟨rfl, rfl, ⟨rfl, rfl, rfl⟩, rfl, rfl, rfl, rfl, ⟨rfl, rfl, rfl⟩, rfl, rfl⟩

theorem muted_reported_sample :
    ⟨.rootShell, 0, 7, 0, 1, 2, [115, 104, 0, 0, 0, 0, 0, 0, 0, 0, 0, 0]⟩ ∈
        raises probeSample [(shellSample, 5)] (shellSample, 60005) ∧
      AlertType.rootShell = .rootShell := by
  refine (muted_reported_iff (by decide) probeSample_fresh (by decide) (by decide)).2
    ⟨[115, 104], by decide, ?_⟩
  intro prior earlier later split other _ _
  cases prior with
  | nil =>
      cases split
      decide
  | cons first prior => cases prior <;> cases split

end Runs

/-! Windows. -/

section Gauges

variable (probe : Probe)

/-- The number of zombies that an event tells of. -/
def zombiesOf (event : TimedEvent) : UInt32 :=
  match event.1 with
  | .snapshot s => s.zombies
  | _ => 0

def Probe.spawns : Gauge TimedEvent UInt32 where
  empty := 0
  add := fun count _ => count + 1
  full := fun count => probe.forkFlood.spawnThreshold ≤ count

def Probe.zombies : Gauge TimedEvent UInt32 where
  empty := 0
  add := fun most event => if most < zombiesOf event then zombiesOf event else most
  full := fun most => probe.zombie.zombieThreshold ≤ most

/-- Executions that are a flood. -/
def Probe.Flood (window : List TimedEvent) : Prop :=
  probe.forkFlood.spawnThreshold.toNat ≤ window.length

/-- Snapshots that are a storm. -/
def Probe.Storm (window : List TimedEvent) : Prop :=
  ∃ event ∈ window, probe.zombie.zombieThreshold ≤ zombiesOf event

variable {probe}

theorem spawns_tells : probe.spawns.Tells probe.Flood
    fun count window => count = .ofNat window.length where
  empty := rfl
  added := by
    intro count window event held
    rw [held, List.length_append, UInt32.ofNat_add]
    rfl
  full := by
    intro count window event held short
    have bound := probe.forkFlood.spawnThreshold.toNat_lt
    have small : window.length + 1 < 2 ^ 32 := by
      rcases short with empty | short
      · rw [empty]
        exact (by omega : 1 < 2 ^ 32)
      · rw [Probe.Flood] at short
        omega
    have next : (count + 1).toNat = window.length + 1 := by
      rw [held, ← UInt32.ofNat_one, ← UInt32.ofNat_add, UInt32.toNat_ofNat_of_lt' small]
    rw [Probe.Flood, List.length_append, List.length_singleton, ← next, ← UInt32.le_iff_toNat_le]
    exact decide_eq_true_iff
  grows := by
    intro window event _ flood
    rw [Probe.Flood, List.length_append]
    exact Nat.le_trans flood (Nat.le_add_right _ _)

/-- The most zombies of a window, or none. -/
def Most (most : UInt32) (window : List TimedEvent) : Prop :=
  (∀ event ∈ window, zombiesOf event ≤ most) ∧
    (most = 0 ∨ ∃ event ∈ window, zombiesOf event = most)

theorem Most.add {most : UInt32} {window : List TimedEvent} (held : Most most window)
    (event : TimedEvent) : Most (probe.zombies.add most event) (window ++ [event]) := by
  obtain ⟨bound, reached⟩ := held
  rw [Probe.zombies]
  dsimp only
  split
  next more =>
    refine ⟨?_, .inr ⟨event, List.mem_append_right _ List.mem_cons_self, rfl⟩⟩
    intro member place
    rcases List.mem_append.mp place with before | here
    · exact UInt32.le_of_lt (UInt32.lt_of_le_of_lt (bound member before) more)
    · rw [List.mem_singleton.mp here]
      exact UInt32.le_refl _
  next less =>
    constructor
    · intro member place
      rcases List.mem_append.mp place with before | here
      · exact bound member before
      · rw [List.mem_singleton.mp here]
        exact UInt32.not_lt.mp less
    · rcases reached with zero | ⟨member, place, same⟩
      · exact .inl zero
      · exact .inr ⟨member, List.mem_append_left _ place, same⟩

theorem zombies_tells : probe.zombies.Tells probe.Storm Most where
  empty := by
    refine ⟨fun event member => ?_, .inl rfl⟩
    cases member
  added := fun event held => held.add event
  full := by
    intro most window event held _
    obtain ⟨bound, reached⟩ := @Most.add probe _ _ held event
    refine decide_eq_true_iff.trans ?_
    constructor
    · intro enough
      rcases reached with zero | ⟨member, place, same⟩
      · refine ⟨event, List.mem_append_right _ List.mem_cons_self, ?_⟩
        rw [zero] at enough
        exact UInt32.le_trans enough (UInt32.zero_le)
      · exact ⟨member, place, same ▸ enough⟩
    · rintro ⟨member, place, enough⟩
      exact UInt32.le_trans enough (bound member place)
  grows := by
    intro window event _ storm
    obtain ⟨member, place, enough⟩ := storm
    exact ⟨member, List.mem_append_left _ place, enough⟩

end Gauges

section Detectors

variable {probe : Probe} {latch : Option (Latch UInt32)} {event : TimedEvent}

theorem elapsed {start : Nat} {now : UInt64} (before : start ≤ now.toNat) (interval : UInt32) :
    interval.toUInt64 ≤ now - .ofNat start ↔ interval.toNat ≤ now.toNat - start := by
  have small : start < 2 ^ 64 := Nat.lt_of_le_of_lt before now.toNat_lt
  have opened : (UInt64.ofNat start).toNat = start := UInt64.toNat_ofNat_of_lt' small
  rw [UInt64.le_iff_toNat_le, UInt64.toNat_sub_of_le _ _ (UInt64.le_iff_toNat_le.mpr
    (opened.symm ▸ before)), opened, UInt32.toNat_toUInt64]

/-- The flood detector in an open window. -/
def Probe.floodAt (probe : Probe) (latch : Latch UInt32) : ForkFloodDetector :=
  { probe.forkFlood with
    started := true, windowStart := .ofNat latch.start, count := latch.held,
    alerted := latch.reported }

def Probe.FloodLatched (probe : Probe) (detector : ForkFloodDetector) :
    Option (Latch UInt32) → Prop
  | none => ∃ windowStart, detector =
      { probe.forkFlood with started := false, windowStart, count := 0, alerted := false }
  | some latch => detector = probe.floodAt latch

theorem flood_enter {detector : ForkFloodDetector} (latched : probe.FloodLatched detector latch)
    (before : ∀ open_ ∈ latch, open_.start ≤ event.2.toNat) :
    detector.enter event.2 = probe.floodAt
      (Latch.enter probe.spawns probe.forkFlood.windowMs.toNat latch event.2.toNat) := by
  cases latch with
  | none =>
      obtain ⟨windowStart, rfl⟩ := latched
      rw [ForkFloodDetector.enter]
      simp only [Bool.false_eq_true, if_false]
      split <;> simp [Probe.floodAt, Latch.enter, Probe.spawns]
  | some latch =>
      cases latched
      have passed := elapsed (before latch rfl) probe.forkFlood.windowMs
      rw [ForkFloodDetector.enter, Latch.enter]
      simp only [Probe.floodAt, if_true, passed]
      split <;> simp [Probe.spawns]

theorem flood_step {detector : ForkFloodDetector} (latched : probe.FloodLatched detector latch)
    (before : ∀ open_ ∈ latch, open_.start ≤ event.2.toNat) :
    probe.FloodLatched (detector.feed event.2).2
        (some (Latch.feed probe.spawns (·.2.toNat) probe.forkFlood.windowMs.toNat latch event).1) ∧
      (detector.feed event.2).1.isSome =
        (Latch.feed probe.spawns (·.2.toNat) probe.forkFlood.windowMs.toNat latch event).2 := by
  rw [ForkFloodDetector.feed, flood_enter latched before, Latch.feed]
  obtain ⟨start, held, reported⟩ :=
    Latch.enter probe.spawns probe.forkFlood.windowMs.toNat latch event.2.toNat
  simp only [Probe.floodAt, Probe.spawns]
  cases reported <;> by_cases full : probe.forkFlood.spawnThreshold ≤ held + 1 <;>
    simp [full, Probe.FloodLatched, Probe.floodAt]

/-- The storm detector in an open window. -/
def Probe.stormAt (probe : Probe) (latch : Latch UInt32) : ZombieStormDetector :=
  { probe.zombie with
    started := true, windowStart := .ofNat latch.start, maxZombies := latch.held,
    alerted := latch.reported }

def Probe.StormLatched (probe : Probe) (detector : ZombieStormDetector) :
    Option (Latch UInt32) → Prop
  | none => ∃ windowStart, detector =
      { probe.zombie with started := false, windowStart, maxZombies := 0, alerted := false }
  | some latch => detector = probe.stormAt latch

theorem storm_enter {detector : ZombieStormDetector} (latched : probe.StormLatched detector latch)
    (before : ∀ open_ ∈ latch, open_.start ≤ event.2.toNat) :
    detector.enter event.2 = probe.stormAt
      (Latch.enter probe.zombies probe.zombie.windowMs.toNat latch event.2.toNat) := by
  cases latch with
  | none =>
      obtain ⟨windowStart, rfl⟩ := latched
      rw [ZombieStormDetector.enter]
      simp only [Bool.false_eq_true, if_false]
      split <;> simp [Probe.stormAt, Latch.enter, Probe.zombies]
  | some latch =>
      cases latched
      have passed := elapsed (before latch rfl) probe.zombie.windowMs
      rw [ZombieStormDetector.enter, Latch.enter]
      simp only [Probe.stormAt, if_true, passed]
      split <;> simp [Probe.zombies]

theorem storm_step {detector : ZombieStormDetector} {s : SnapshotEvent}
    (latched : probe.StormLatched detector latch) (heard : event.1 = .snapshot s)
    (before : ∀ open_ ∈ latch, open_.start ≤ event.2.toNat) :
    probe.StormLatched (detector.feed s event.2).2
        (some (Latch.feed probe.zombies (·.2.toNat) probe.zombie.windowMs.toNat latch event).1) ∧
      (detector.feed s event.2).1.isSome =
        (Latch.feed probe.zombies (·.2.toNat) probe.zombie.windowMs.toNat latch event).2 := by
  have told : zombiesOf event = s.zombies := by rw [zombiesOf, heard]
  rw [ZombieStormDetector.feed, storm_enter latched before, Latch.feed]
  obtain ⟨start, held, reported⟩ :=
    Latch.enter probe.zombies probe.zombie.windowMs.toNat latch event.2.toNat
  simp only [Probe.stormAt, Probe.zombies, told]
  by_cases more : held < s.zombies
  · simp only [more, if_true]
    cases reported <;> by_cases enough : probe.zombie.zombieThreshold ≤ s.zombies <;>
      simp [enough, Probe.StormLatched, Probe.stormAt]
  · simp only [more, if_false]
    cases reported <;> by_cases enough : probe.zombie.zombieThreshold ≤ held <;>
      simp [enough, Probe.StormLatched, Probe.stormAt]

theorem ForkFloodDetector.eq_unopened {detector : ForkFloodDetector}
    (unopened : detector.started = false ∧ detector.count = 0 ∧ detector.alerted = false) :
    detector = { detector with started := false, count := 0, alerted := false } := by
  obtain ⟨started, count, alerted⟩ := unopened
  cases detector
  cases started
  cases count
  cases alerted
  rfl

theorem ZombieStormDetector.eq_unopened {detector : ZombieStormDetector}
    (unopened : detector.started = false ∧ detector.maxZombies = 0 ∧ detector.alerted = false) :
    detector = { detector with started := false, maxZombies := 0, alerted := false } := by
  obtain ⟨started, most, alerted⟩ := unopened
  cases detector
  cases started
  cases most
  cases alerted
  rfl

end Detectors

section Runs

variable {probe : Probe} {before : List TimedEvent} {event : TimedEvent}

def ProbeEvent.isExec : ProbeEvent → Bool
  | .exec _ => true
  | _ => false

def ProbeEvent.isSnapshot : ProbeEvent → Bool
  | .snapshot _ => true
  | _ => false

theorem flood_kept : Latch.Kept probe.spawns (·.2.toNat) probe.forkFlood.windowMs.toNat
    (alone .forkFlood) (·.1.isExec) probe.FloodLatched where
  heard := by
    intro detector latch event exec latched before
    cases kind : event.1 with
    | exec e =>
        obtain ⟨next, reports⟩ := flood_step latched before
        simp only [alone, onExec, kind]
        refine ⟨next, ?_⟩
        rw [← reports]
        cases (ForkFloodDetector.feed detector event.2).1 <;> simp
    | _ =>
        rw [kind] at exec
        cases exec
  unheard := by
    intro detector event other
    cases kind : event.1 with
    | exec e =>
        rw [kind] at other
        cases other
    | _ => simp only [alone, onExec, kind]

theorem storm_kept : Latch.Kept probe.zombies (·.2.toNat) probe.zombie.windowMs.toNat
    (alone .zombieStorm) (·.1.isSnapshot) probe.StormLatched where
  heard := by
    intro detector latch event snapshot latched before
    cases kind : event.1 with
    | snapshot s =>
        obtain ⟨next, reports⟩ := storm_step latched kind before
        simp only [alone, onSnapshot, kind]
        refine ⟨next, ?_⟩
        rw [← reports]
        cases (ZombieStormDetector.feed detector s event.2).1 <;> simp
    | _ =>
        rw [kind] at snapshot
        cases snapshot
  unheard := by
    intro detector event other
    cases kind : event.1 with
    | snapshot s =>
        rw [kind] at other
        cases other
    | _ => simp only [alone, onSnapshot, kind]

theorem raises_type_iff (type : AlertType) :
    (∃ alert ∈ raises probe before event, alert.detectorType = type) ↔
      ((alone type).react ((alone type).after (probe.share type) before) event).2 ≠ [] := by
  simp only [mem_raises]
  constructor
  · rintro ⟨alert, member⟩
    exact List.ne_nil_of_mem member
  · exact List.exists_mem_of_ne_nil _

/-- In a run from the start, a flood of executions is reported with exactly the execution that
completes it in its window, and a storm of zombies with exactly such a snapshot. -/
theorem bursts_reported_iff (fresh : probe.Fresh)
    (inOrder : (before ++ [event]).Pairwise fun first second => first.2 ≤ second.2) :
    ((∃ alert ∈ raises probe before event, alert.detectorType = .forkFlood) ↔
      event.1.isExec = true ∧ Reached probe.Flood (currentWindow (·.2.toNat)
        probe.forkFlood.windowMs.toNat (before.filter (·.1.isExec) ++ [event]))) ∧
    ((∃ alert ∈ raises probe before event, alert.detectorType = .zombieStorm) ↔
      event.1.isSnapshot = true ∧ Reached probe.Storm (currentWindow (·.2.toNat)
        probe.zombie.windowMs.toNat (before.filter (·.1.isSnapshot) ++ [event]))) := by
  have order : (before ++ [event]).Pairwise fun first second =>
      first.2.toNat ≤ second.2.toNat := inOrder.imp UInt64.le_iff_toNat_le.mp
  rw [raises_type_iff, raises_type_iff]
  exact ⟨flood_kept.reports_iff spawns_tells
      ⟨_, ForkFloodDetector.eq_unopened fresh.forkFlood⟩ order,
    storm_kept.reports_iff zombies_tells
      ⟨_, ZombieStormDetector.eq_unopened fresh.zombie⟩ order⟩

def floodSample : Probe := { probeSample with forkFlood := ⟨1000, 2, false, 0, 0, false⟩ }

/-- The second execution of a flood of two. -/
theorem bursts_reported_sample : ∃ alert ∈ raises floodSample [(shellSample, 5)] (shellSample, 6),
    alert.detectorType = .forkFlood :=
  (bursts_reported_iff ⟨rfl, rfl, ⟨rfl, rfl, rfl⟩, rfl, rfl, rfl, rfl, ⟨rfl, rfl, rfl⟩, rfl, rfl⟩
    (by decide)).1.2 ⟨rfl, Nat.le_refl 2, .inr (Nat.not_succ_le_self 1)⟩

end Runs

end Idsm.HostProbe
