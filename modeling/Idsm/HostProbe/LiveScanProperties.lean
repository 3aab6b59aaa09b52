import Idsm.HostProbe.LiveScan

/-! What the live scanner raises. It visits only the files the setuid detector ignores, and
it never forgets a module, so a second load goes unseen. -/

set_option autoImplicit false

namespace Idsm.HostProbe

/-- The module is in the kernel's table at a pass. -/
def Loaded (seen : Pass) (name : List UInt8) : Prop :=
  ∃ line ∈ seen.modules.getD [], moduleName line = some name

/-- A file that runs as root and is not in the baseline. -/
def SetuidOutside (files : FileBaseline) (seen : Pass) (path : List UInt8) : Prop :=
  path ∉ files.map Prod.fst ∧ ∃ info, seen.stat path = some info ∧ info.mode &&& 0o4000 ≠ 0 ∧
    info.uid = 0

/-- An alert of the kind raised for the module. -/
def RaisesKmodLoad (raised : List (HostEvent × HostAlert)) (name : List UInt8) : Prop :=
  ∃ alert, (.moduleScan name, alert) ∈ raised ∧ alert.detectorType = .kmodLoad

def RaisesNewSetuid (raised : List (HostEvent × HostAlert)) (path : List UInt8) : Prop :=
  ∃ file alert, (.fileScan file, alert) ∈ raised ∧ file.path = path ∧
    alert.detectorType = .newSetuid

/-- Every pass raises the alert of each setuid file outside the baseline, and of each module
outside its baseline that the pass before did not find. -/
structure Covers (live : LiveScan) (files : FileBaseline) (modules : List (List UInt8))
    (passes : List Pass) : Prop where
  setuid : ∀ past seen rest, passes = past ++ seen :: rest → ∀ path,
    SetuidOutside files seen path → RaisesNewSetuid ((live.after past).pass seen).1 path
  kmod : ∀ past previous seen rest, passes = past ++ previous :: seen :: rest → ∀ name,
    Loaded seen name → ¬ Loaded previous name → name ∉ modules →
      RaisesKmodLoad ((live.after (past ++ [previous])).pass seen).1 name

section Detectors

variable {detector : KmodLoadDetector} {pipeline : HostProbePipeline} {name path : List UInt8}
  {nowMs later : Nat} {event : HostEvent} {events : List HostEvent}

/-- Nothing is muted any more, and nothing will be. -/
structure KmodLoadDetector.Quiet (detector : KmodLoadDetector) (nowMs : Nat) : Prop where
  cooldown : detector.cooldownMs = 0
  ended : ∀ mute ∈ detector.muted, mute.2 ≤ nowMs

theorem KmodLoadDetector.Quiet.mono (quiet : detector.Quiet nowMs) (passed : nowMs ≤ later) :
    detector.Quiet later :=
  ⟨quiet.cooldown, fun mute member => Nat.le_trans (quiet.ended mute member) passed⟩

theorem KmodLoadDetector.Quiet.not_muted (quiet : detector.Quiet nowMs) (key : List UInt8) :
    mutedUntil detector.muted key nowMs = false := by
  rw [mutedUntil]
  cases found : detector.muted.lookup key with
  | none => rfl
  | some until' =>
      obtain ⟨front, back, split, _⟩ := List.lookup_eq_some_iff.mp found
      have past := quiet.ended (key, until') (by simp [split])
      simpa using past

theorem KmodLoadDetector.Quiet.feed (quiet : detector.Quiet nowMs) (name : List UInt8) :
    (detector.feed name nowMs).2.Quiet nowMs := by
  rw [KmodLoadDetector.feed, quiet.not_muted]
  split
  · exact quiet
  · constructor
    · exact quiet.cooldown
    · intro mute member
      cases member with
      | head => simp [quiet.cooldown]
      | tail _ older => exact quiet.ended mute older

/-- What feeding an event leaves as it was. -/
structure HostProbePipeline.Same (before after : HostProbePipeline) : Prop where
  modules : after.kmod.baseline = before.kmod.baseline
  paths : after.newSetuid.baselinePaths = before.newSetuid.baselinePaths

theorem KmodLoadDetector.Quiet.feed_raises (quiet : detector.Quiet nowMs)
    (enabled : detector.baseline ≠ []) (outside : name ∉ detector.baseline) :
    (detector.feed name nowMs).1 = some (makeNameAlert .kmodLoad name) := by
  have unknown : ¬ (detector.baseline = [] ∨ name ∈ detector.baseline) :=
    fun either => either.elim enabled outside
  rw [KmodLoadDetector.feed, if_neg unknown, quiet.not_muted]
  rfl

theorem KmodLoadDetector.feed_baseline :
    (detector.feed name nowMs).2.baseline = detector.baseline := by
  rw [KmodLoadDetector.feed]
  split
  · rfl
  · split <;> rfl

theorem NewSetuidDetector.feed_baselinePaths (setuid : NewSetuidDetector) (f : FileScanEvent) :
    (setuid.feed f nowMs).2.baselinePaths = setuid.baselinePaths := by
  rw [NewSetuidDetector.feed]
  repeat' split
  all_goals rfl

theorem HostProbePipeline.feedEvent_same (nowMs : Nat) (event : HostEvent) :
    pipeline.Same (pipeline.feedEvent nowMs event).2 := by
  cases event with
  | fileScan file => exact ⟨rfl, NewSetuidDetector.feed_baselinePaths _ _⟩
  | moduleScan name => exact ⟨KmodLoadDetector.feed_baseline, rfl⟩

theorem HostProbePipeline.feedEvent_quiet (quiet : pipeline.kmod.Quiet nowMs) (event : HostEvent) :
    (pipeline.feedEvent nowMs event).2.kmod.Quiet nowMs := by
  cases event with
  | fileScan file => exact quiet
  | moduleScan name => exact quiet.feed name

/-- The setuid detector raises nothing for a path of its baseline. -/
theorem NewSetuidDetector.feed_known {setuid : NewSetuidDetector} {f : FileScanEvent} (nowMs : Nat)
    (known : f.path ∈ setuid.baselinePaths) : (setuid.feed f nowMs).1 = none := by
  rw [NewSetuidDetector.feed]
  split
  · rfl
  · split
    · rfl
    · rfl

theorem FileModDetector.feed_type {files : FileModDetector} {f : FileScanEvent} {alert : HostAlert}
    (raised : (files.feed f nowMs).1 = some alert) : alert.detectorType = .fileMod := by
  rw [FileModDetector.feed] at raised
  split at raised
  · cases raised
  · split at raised
    · cases raised
    · simp only at raised
      split at raised
      · cases raised
        rfl
      · split at raised
        · cases raised
          rfl
        · cases raised

theorem KmodLoadDetector.feed_type {alert : HostAlert}
    (raised : (detector.feed name nowMs).1 = some alert) : alert.detectorType = .kmodLoad := by
  rw [KmodLoadDetector.feed] at raised
  split at raised
  · cases raised
  · split at raised
    · cases raised
    · cases raised
      rfl

theorem HostProbePipeline.feedEvent_fileScan (f : FileScanEvent) :
    (pipeline.feedEvent nowMs (.fileScan f)).1 = (pipeline.fileMod.feed f nowMs).1.toList ++
      (pipeline.newSetuid.feed f nowMs).1.toList := rfl

theorem HostProbePipeline.feedAll_same (events : List HostEvent) :
    pipeline.Same (pipeline.feedAll nowMs events).2 := by
  induction events generalizing pipeline with
  | nil => exact ⟨rfl, rfl⟩
  | cons event events ih =>
      have first := pipeline.feedEvent_same nowMs event
      have rest := @ih (pipeline.feedEvent nowMs event).2
      exact ⟨rest.modules.trans first.modules, rest.paths.trans first.paths⟩

theorem HostProbePipeline.feedAll_quiet (quiet : pipeline.kmod.Quiet nowMs)
    (events : List HostEvent) : (pipeline.feedAll nowMs events).2.kmod.Quiet nowMs := by
  induction events generalizing pipeline with
  | nil => exact quiet
  | cons event events ih => exact ih (pipeline.feedEvent_quiet quiet event)

/-- An alert is raised for an event that was fed. -/
theorem HostProbePipeline.mem_feedAll {pair : HostEvent × HostAlert}
    (member : pair ∈ (pipeline.feedAll nowMs events).1) :
    pair.1 ∈ events ∧ ∃ before, pipeline.Same before ∧ pair.2 ∈ (before.feedEvent nowMs pair.1).1 := by
  induction events generalizing pipeline with
  | nil => cases member
  | cons event events ih =>
      rcases List.mem_append.mp member with here | later
      · obtain ⟨alert, raised, rfl⟩ := List.mem_map.mp here
        exact ⟨List.mem_cons_self, pipeline, ⟨rfl, rfl⟩, raised⟩
      · obtain ⟨fed, before, same, raised⟩ := ih later
        have first := pipeline.feedEvent_same nowMs event
        exact ⟨List.mem_cons_of_mem _ fed, before,
          ⟨same.modules.trans first.modules, same.paths.trans first.paths⟩, raised⟩

/-- A module outside the baseline raises its alert. -/
theorem HostProbePipeline.feedAll_raises (quiet : pipeline.kmod.Quiet nowMs)
    (enabled : pipeline.kmod.baseline ≠ []) (outside : name ∉ pipeline.kmod.baseline)
    (fed : .moduleScan name ∈ events) : RaisesKmodLoad (pipeline.feedAll nowMs events).1 name := by
  induction events generalizing pipeline with
  | nil => cases fed
  | cons event events ih =>
      cases fed with
      | head =>
          have raised : makeNameAlert .kmodLoad name ∈
              (pipeline.feedEvent nowMs (.moduleScan name)).1 :=
            Option.mem_toList.mpr (quiet.feed_raises enabled outside)
          exact ⟨_, List.mem_append_left _ (List.mem_map_of_mem raised), rfl⟩
      | tail _ later =>
          have first := pipeline.feedEvent_same nowMs event
          obtain ⟨alert, raised, kind⟩ := ih (pipeline.feedEvent_quiet quiet event)
            (first.modules ▸ enabled) (first.modules ▸ outside) later
          exact ⟨alert, List.mem_append_right _ raised, kind⟩

end Detectors

section Scanner

variable {primed : Bool} {known lines : List (List UInt8)} {event : HostEvent}
  {name : List UInt8}

/-- A pass adds every module it finds. -/
theorem mem_scanModules_known :
    name ∈ (scanModules primed known lines).2 ↔
      name ∈ known ∨ ∃ line ∈ lines, moduleName line = some name := by
  induction lines generalizing known with
  | nil => simp [scanModules]
  | cons line lines ih =>
      rw [scanModules]
      cases named : moduleName line with
      | none =>
          rw [ih]
          simp [named]
      | some found =>
          by_cases old : found ∈ known
          · simp only [old, if_true, ih, List.mem_cons, exists_eq_or_imp, named,
              Option.some.injEq]
            constructor
            · exact fun either => either.imp_right .inr
            · intro either
              rcases either with member | same | later
              · exact .inl member
              · exact .inl (same ▸ old)
              · exact .inr later
          · simp only [old, if_false, ih, List.mem_cons, exists_eq_or_imp, named,
              Option.some.injEq, eq_comm (a := name), or_assoc, or_left_comm]

/-- The events of a primed pass are the modules that no pass found before. -/
theorem mem_scanModules_events :
    event ∈ (scanModules primed known lines).1 ↔ primed = true ∧ ∃ name,
      event = .moduleScan name ∧ name ∉ known ∧ ∃ line ∈ lines, moduleName line = some name := by
  induction lines generalizing known with
  | nil => simp [scanModules]
  | cons line lines ih =>
      rw [scanModules]
      cases named : moduleName line with
      | none =>
          rw [ih]
          simp [named]
      | some found =>
          by_cases old : found ∈ known
          · simp only [old, if_true, ih, List.mem_cons, exists_eq_or_imp, named,
              Option.some.injEq]
            constructor
            · exact fun ⟨on, name, same, new, later⟩ => ⟨on, name, same, new, .inr later⟩
            · intro ⟨on, name, same, new, either⟩
              exact ⟨on, name, same, new, either.resolve_left fun equal => new (equal ▸ old)⟩
          · simp only [old, if_false, List.mem_cons, exists_eq_or_imp, named, Option.some.injEq]
            cases primed with
            | false => simp [ih]
            | true =>
                simp only [if_true, List.mem_cons, ih, not_or, true_and]
                constructor
                · intro either
                  rcases either with same | ⟨name, same, ⟨_, new⟩, later⟩
                  · exact ⟨found, same, old, .inl rfl⟩
                  · exact ⟨name, same, new, .inr later⟩
                · intro ⟨name, same, new, either⟩
                  by_cases equal : name = found
                  · exact .inl (equal ▸ same)
                  · exact .inr ⟨name, same, ⟨equal, new⟩, either.resolve_left (Ne.symm equal)⟩

end Scanner

section Runs

variable {files : FileBaseline} {modules : List (List UInt8)} {past : List Pass} {live : LiveScan}
  {seen : Pass} {name path : List UInt8}

/-- What the past passes left behind: the wiring of the start, every module ever seen, and
no muted module. -/
structure Watching (files : FileBaseline) (modules : List (List UInt8)) (past : List Pass)
    (live : LiveScan) : Prop where
  scanFiles : live.scan.scanFiles = files.map Prod.fst
  paths : live.pipeline.newSetuid.baselinePaths = files.map Prod.fst
  modules : live.pipeline.kmod.baseline = modules
  quiet : live.pipeline.kmod.Quiet live.nowMs
  known : ∀ name, name ∈ live.scan.knownMods ↔ ∃ pass ∈ past, Loaded pass name
  primed : live.scan.primed = true ↔ past ≠ []

theorem watching_start (cooldowns : Cooldowns) (quiet : cooldowns.kmod = 0) :
    Watching files modules [] (.start cooldowns files modules) where
  scanFiles := rfl
  paths := rfl
  modules := rfl
  quiet := ⟨quiet, fun _ member => nomatch member⟩
  known := by simp [LiveScan.start]
  primed := by simp [LiveScan.start]

theorem Watching.pass (watching : Watching files modules past live) (seen : Pass) :
    Watching files modules (past ++ [seen]) (live.pass seen).2 where
  scanFiles := watching.scanFiles
  paths := (HostProbePipeline.feedAll_same _).paths.trans watching.paths
  modules := (HostProbePipeline.feedAll_same _).modules.trans watching.modules
  quiet := HostProbePipeline.feedAll_quiet (watching.quiet.mono (Nat.le_add_right _ _)) _
  known := by
    intro name
    refine mem_scanModules_known.trans ?_
    rw [watching.known]
    simp [or_and_right, exists_or, Loaded]
  primed := by simp [LiveScan.pass, ProcScanCapture.pass]

theorem Watching.after (watching : Watching files modules past live) (passes : List Pass) :
    Watching files modules (past ++ passes) (live.after passes) := by
  induction passes generalizing past live with
  | nil => rwa [List.append_nil]
  | cons seen passes ih =>
      have next := ih (watching.pass seen)
      rwa [List.append_assoc] at next

/-- The scanned files are those of the baseline. -/
theorem Watching.no_newSetuid (watching : Watching files modules past live) (path : List UInt8) :
    ¬ RaisesNewSetuid (live.pass seen).1 path := by
  intro ⟨file, alert, raised, _, kind⟩
  obtain ⟨fed, before, same, fromFile⟩ := HostProbePipeline.mem_feedAll raised
  have scanned : file.path ∈ files.map Prod.fst := by
    rcases List.mem_append.mp fed with ofModules | ofFiles
    · obtain ⟨_, _, impossible, _⟩ := mem_scanModules_events.1 ofModules
      cases impossible
    · obtain ⟨key, member, scan⟩ := List.mem_map.mp ofFiles
      cases scan
      rw [watching.scanFiles] at member
      rw [scanFile]
      split <;> exact member
  have known : file.path ∈ before.newSetuid.baselinePaths := by
    rw [same.paths, watching.paths]
    exact scanned
  have silent := NewSetuidDetector.feed_known (live.nowMs + seen.elapsedMs) known
  rw [HostProbePipeline.feedEvent_fileScan] at fromFile
  rcases List.mem_append.mp fromFile with modified | setuid
  · rw [FileModDetector.feed_type (Option.mem_toList.mp modified)] at kind
    cases kind
  · rw [silent] at setuid
    cases setuid

/-- A module raises its alert at the first pass behind the start that finds it. -/
theorem Watching.kmodLoad_iff (watching : Watching files modules past live)
    (enabled : modules ≠ []) (outside : name ∉ modules) (loaded : Loaded seen name) :
    RaisesKmodLoad (live.pass seen).1 name ↔
      past ≠ [] ∧ ∀ earlier ∈ past, ¬ Loaded earlier name := by
  constructor
  · intro ⟨alert, raised, _⟩
    obtain ⟨fed, _⟩ := HostProbePipeline.mem_feedAll raised
    rcases List.mem_append.mp fed with ofModules | ofFiles
    · obtain ⟨primed, found, same, new, _⟩ := mem_scanModules_events.1 ofModules
      cases same
      exact ⟨watching.primed.1 primed, fun earlier member before =>
        new ((watching.known name).2 ⟨earlier, member, before⟩)⟩
    · obtain ⟨_, _, impossible⟩ := List.mem_map.mp ofFiles
      cases impossible
  · intro ⟨behind, new⟩
    have quiet := watching.quiet.mono (Nat.le_add_right live.nowMs seen.elapsedMs)
    refine HostProbePipeline.feedAll_raises quiet (watching.modules ▸ enabled)
      (watching.modules ▸ outside) (List.mem_append_left _ ?_)
    refine mem_scanModules_events.2 ⟨watching.primed.2 behind, name, rfl, ?_, loaded⟩
    intro known
    obtain ⟨earlier, member, before⟩ := (watching.known name).1 known
    exact new earlier member before

end Runs

/-- Without cool-downs, the scanner covers a history exactly when no setuid file is outside
the baseline at any pass, and no module outside its baseline comes back after it was gone. -/
theorem scan_covers_iff (files : FileBaseline) (modules : List (List UInt8)) (passes : List Pass)
    (someModule : modules ≠ []) :
    Covers (.start ⟨0, 0, 0⟩ files modules) files modules passes ↔
      (∀ seen ∈ passes, ∀ path, ¬ SetuidOutside files seen path) ∧
      ∀ past previous seen rest, passes = past ++ previous :: seen :: rest → ∀ name,
        Loaded seen name → ¬ Loaded previous name → name ∉ modules →
          ∀ earlier ∈ past, ¬ Loaded earlier name := by
  have watching : ∀ past, Watching files modules past
      ((LiveScan.start ⟨0, 0, 0⟩ files modules).after past) := fun past =>
    (watching_start ⟨0, 0, 0⟩ rfl).after past
  constructor
  · intro covers
    constructor
    · intro seen member path outside
      obtain ⟨past, rest, split⟩ := List.append_of_mem member
      exact (watching past).no_newSetuid path (covers.setuid past seen rest split path outside)
    · intro past previous seen rest split name loaded gone outside earlier member
      have raised := covers.kmod past previous seen rest split name loaded gone outside
      exact (((watching _).kmodLoad_iff someModule outside loaded).1 raised).2 earlier
        (List.mem_append_left _ member)
  · intro ⟨noFile, noReturn⟩
    constructor
    · intro past seen rest split path outside
      exact absurd outside (noFile seen (by simp [split]) path)
    · intro past previous seen rest split name loaded gone outside
      refine ((watching _).kmodLoad_iff someModule outside loaded).2 ⟨by simp, ?_⟩
      intro earlier member
      rcases List.mem_append.mp member with before | last
      · exact noReturn past previous seen rest split name loaded gone outside earlier before
      · rw [List.mem_singleton.mp last]
        exact gone

/-! Short histories. The baselines hold the file "/s" and the module "b". -/

def fileBaselineSample : FileBaseline := [([47, 115], List.replicate 32 0)]

/-- Each line of the table is a module's name, and no file but "/t" is there. -/
def passSample (modules : List (List UInt8)) (setuid : Bool) : Pass where
  elapsedMs := 1000
  modules := some modules
  stat path := if setuid = true ∧ path = [47, 116] then some ⟨0o4755, 0, none⟩ else none

theorem scan_covers_sample :
    Covers (.start ⟨0, 0, 0⟩ fileBaselineSample [[98]]) fileBaselineSample [[98]]
      [passSample [[98]] false, passSample [[98], [97]] false] := by
  refine (scan_covers_iff fileBaselineSample [[98]] _ (List.cons_ne_nil _ _)).2 ⟨?_, ?_⟩
  · simp [SetuidOutside, passSample]
  · intro past previous seen rest split name _ _ _ earlier member
    have lengths := congrArg List.length split
    simp only [List.length_cons, List.length_nil, List.length_append] at lengths
    rw [List.length_eq_zero_iff.mp (show past.length = 0 by omega)] at member
    cases member

/-- The module "a" is unloaded and comes back, and the setuid file "/t" appears. -/
theorem scan_misses_return : ¬ Covers (.start ⟨0, 0, 0⟩ fileBaselineSample [[98]])
    fileBaselineSample [[98]]
    [passSample [[98], [97]] false, passSample [[98]] false, passSample [[98], [97]] true] := by
  have named : moduleName [97] = some [97] ∧ moduleName [98] = some [98] := by decide
  have loaded : ∀ setuid, Loaded (passSample [[98], [97]] setuid) [97] :=
    fun _ => ⟨[97], by simp [passSample], named.1⟩
  have gone : ¬ Loaded (passSample [[98]] false) [97] := by
    simp [Loaded, passSample, named.2]
  intro covers
  have raised := covers.kmod [passSample [[98], [97]] false] _ _ [] rfl [97] (loaded true) gone
    (by decide)
  have watching := (show Watching fileBaselineSample [[98]] [] (.start ⟨0, 0, 0⟩ fileBaselineSample [[98]])
    from watching_start ⟨0, 0, 0⟩ rfl).after [passSample [[98], [97]] false, passSample [[98]] false]
  have never := ((watching.kmodLoad_iff (by decide) (by decide) (loaded true)).1 raised).2
  exact never (passSample [[98], [97]] false) (by simp) (loaded false)

theorem scan_misses_setuid : ¬ Covers (.start ⟨0, 0, 0⟩ fileBaselineSample [[98]])
    fileBaselineSample [[98]] [passSample [[98]] true] := by
  intro covers
  have outside : SetuidOutside fileBaselineSample (passSample [[98]] true) [47, 116] :=
    ⟨by decide, ⟨0o4755, 0, none⟩, by simp [passSample], by decide, rfl⟩
  exact (watching_start ⟨0, 0, 0⟩ rfl).no_newSetuid [47, 116]
    (covers.setuid [] _ [] rfl [47, 116] outside)

end Idsm.HostProbe
