import Idsm.Managerd.RuleRollbackProperties

/-! The names in the rules directory: what an application does to the entry that its
bundle's version names, against the entries that the manager keeps for itself. -/

set_option autoImplicit false

namespace Idsm.Managerd

open Idsm.Foundation

namespace RuleManager

open RulesDir

variable {env : RuleStep → Fault} {bundle : RuleBundle} {dir later : RulesDir}

/-- Step 7 up to the full scratch directory. -/
def prepareScratch (env : RuleStep → Fault) (bundle : RuleBundle) : RuleProgram Unit := do
  ignoring (env .removeScratch) (·.erase "rules.new") (fun progress dir =>
    dir.removeSome "rules.new" progress)
  ignoring (env .createScratch) createScratch (fun _ dir => dir)
  writeRules env bundle.rules.zipIdx

/-- The steps that take the version as a path. -/
def replaceVersion (env : RuleStep → Fault) (bundle : RuleBundle) : RuleProgram Unit := do
  ignoring (env .removeVersion) (·.erase bundle.header.version) (fun progress dir =>
    dir.removeSome bundle.header.version progress)
  let renamed ← failing (env .renameVersion) (landScratch bundle)
  rejectAfter "rename rules.new: " renamed

theorem land_run (start : RulesDir) :
    (land env bundle).run start = ((prepareScratch env bundle).run start).andThen
      fun _ middle => (replaceVersion env bundle).run middle := by
  rw [land, prepareScratch, replaceVersion]
  simp only [Program.run_bind]
  cases (ignoring (env .removeScratch) (·.erase "rules.new") (fun progress dir =>
      dir.removeSome "rules.new" progress)).run start with
  | returned _ cleared =>
      simp only [Outcome.andThen_returned]
      cases (ignoring (env .createScratch) createScratch (fun _ dir => dir)).run cleared with
      | returned _ created => rfl
      | threw _ _ => rfl
      | crashed _ => rfl
  | threw _ _ => rfl
  | crashed _ => rfl

/-- The scratch directory came to lie under the version's name. -/
def MovedTo (source target : Option Entry) : Prop :=
  source ≠ none ∧ (target = source ∨ ∃ rules origin, source = some (.directory rules) ∧
    target = some (.directory { rules with origin }))

/-- The manager's own entries are as they were; only the scratch directory may have
moved to the version's place. -/
structure SparesOwn (bundle : RuleBundle) (before after : RulesDir) : Prop where
  kept : ∀ name ∈ ownNames, name ≠ "rules.new" → after.node? name = before.node? name
  scratch : after.node? "rules.new" = before.node? "rules.new" ∨
    MovedTo (before.node? "rules.new") (after.node? bundle.header.version)

/-- Anything that happens to other names only. -/
def KeepsOwn (before after : RulesDir) : Prop :=
  ∀ name ∈ ownNames, name ≠ "rules.new" → after.node? name = before.node? name

theorem KeepsOwn.trans {mid : RulesDir} (first : KeepsOwn dir mid) (second : KeepsOwn mid later) :
    KeepsOwn dir later :=
  fun name own other => (second name own other).trans (first name own other)

theorem KeepsOwn.of_same {names : List String} (same : Same names dir later)
    (apart : ∀ name ∈ names, name ∉ ownNames ∨ name = "rules.new") : KeepsOwn dir later := by
  intro name own other
  refine same name fun member => ?_
  rcases apart name member with outside | scratch
  · exact outside own
  · exact other scratch

theorem prepareScratch_keepsOwn :
    Program.Triple (· = dir) (prepareScratch env bundle) (fun _ => KeepsOwn dir)
      (fun _ => KeepsOwn dir) (KeepsOwn dir) := by
  have scratch : ∀ {mid after : RulesDir}, KeepsOwn dir mid → Same ["rules.new"] mid after →
      KeepsOwn dir after :=
    fun kept same => kept.trans (.of_same same (by simp))
  refine @Program.Triple.weaken _ _ _ _ _ _ _ _ (KeepsOwn dir) _ _ _ ?_
    (fun _ here name _ _ => by rw [here]) (fun _ _ given => given) (fun _ _ given => given)
    (fun _ given => given)
  refine Program.Triple.bind (fun _ => KeepsOwn dir)
    (ignoring_preserves (fun _ kept => scratch kept (same_erase _ _))
      fun _ _ kept => scratch kept (same_removeSome _ _ _)) fun _ => ?_
  refine Program.Triple.bind (fun _ => KeepsOwn dir) (ignoring_preserves ?_ fun _ _ kept => kept)
    fun _ => writeRules_preserves (fun _ _ _ kept => scratch kept (same_writeInto _ _ _ _)) _
  intro mid kept
  rw [createScratch]
  split
  · exact scratch kept (same_putDirectory _ _ _)
  · exact kept

theorem SparesOwn.of_same {mid : RulesDir} (same : Same [bundle.header.version] dir mid)
    (ordinary : bundle.header.version ∉ ownNames) : SparesOwn bundle dir mid where
  kept := KeepsOwn.of_same same (by simpa using .inl ordinary)
  scratch := .inl (same "rules.new" (by simpa using (own_apart ordinary).2.2.2.2.symm))

theorem SparesOwn.landed {mid : RulesDir} (same : Same [bundle.header.version] dir mid)
    (ordinary : bundle.header.version ∉ ownNames) (landed : landScratch bundle mid = .ok later) :
    SparesOwn bundle dir later := by
  have apart := (own_apart ordinary).2.2.2.2
  have start : mid.node? "rules.new" = dir.node? "rules.new" :=
    same "rules.new" (by simpa using apart.symm)
  rw [landScratch] at landed
  cases renamed : mid.rename "rules.new" bundle.header.version rfl with
  | error errno =>
      rw [renamed] at landed
      cases landed
  | ok moved =>
      obtain ⟨source, found, _, gone, arrived, others⟩ := rename_ok apart.symm renamed
      rw [renamed] at landed
      have existing : dir.node? "rules.new" ≠ none := by
        rw [← start, found]
        simp
      have away : KeepsOwn dir moved :=
        (KeepsOwn.of_same same (by simpa using .inl ordinary)).trans
          (.of_same others (by simpa using .inl ordinary))
      simp only [Except.map, arrived] at landed
      cases source with
      | file content =>
          cases landed
          exact ⟨away, .inr ⟨existing, .inl (by rw [arrived, ← start, found])⟩⟩
      | link target => exact absurd (isLinkName_of_link found) (by decide)
      | directory rules =>
          cases landed
          refine ⟨away.trans (.of_same (same_putDirectory _ _ _) (by simpa using .inl ordinary)),
            .inr ⟨existing, .inr ⟨rules, some bundle.header.seq, by rw [← start, found], ?_⟩⟩⟩
          rw [node?_putDirectory, if_pos rfl]

theorem replaceVersion_sparesOwn (ordinary : bundle.header.version ∉ ownNames) :
    Program.Triple (· = dir) (replaceVersion env bundle) (fun _ => SparesOwn bundle dir)
      (fun _ => SparesOwn bundle dir) (SparesOwn bundle dir) := by
  refine Program.Triple.bind (fun _ => Same [bundle.header.version] dir)
    (ignoring_triple ?_ ?_ ?_) fun _ => ?_
  · rintro _ _ rfl
    exact same_erase _ _
  · rintro progress _ _ rfl
    exact same_removeSome _ _ _
  · rintro progress _ _ rfl
    exact .of_same (same_removeSome _ _ _) ordinary
  refine Program.Triple.bind (fun _ => SparesOwn bundle dir)
    (failing_triple (fun _ _ _ same landed => .landed same ordinary landed)
      (fun _ _ same _ => .of_same same ordinary) fun _ _ same => .of_same same ordinary)
    fun result => rejectAfter_triple (fun _ _ given => given) fun _ _ _ given => given

/-- The counter and the active link after an application. -/
structure OwnSurvive (bundle : RuleBundle) (before after : RulesDir) : Prop where
  counter : after.node? "max_seq" = before.node? "max_seq" ∨
    after.node? "max_seq" = some (.file (seqText bundle.header.seq))
  link : before.node? "current" ≠ none → after.node? "current" ≠ none

/-- Until the number is stored the counter is as it was. -/
structure Switching (before after : RulesDir) : Prop where
  counter : after.node? "max_seq" = before.node? "max_seq"
  link : before.node? "current" ≠ none → after.node? "current" ≠ none

theorem Switching.survive (switching : Switching dir later) : OwnSurvive bundle dir later :=
  ⟨.inl switching.counter, switching.link⟩

theorem Switching.of_keepsOwn (kept : KeepsOwn dir later) : Switching dir later where
  counter := kept "max_seq" (by decide) (by decide)
  link := by
    rw [kept "current" (by decide) (by decide)]
    exact id

theorem Switching.change {mid : RulesDir} (switching : Switching dir mid)
    (same : Same ["current.tmp"] mid later) : Switching dir later where
  counter := (same "max_seq" (by decide)).trans switching.counter
  link := by
    rw [same "current" (by decide)]
    exact switching.link

theorem land_switching (ordinary : bundle.header.version ∉ ownNames) :
    Program.Triple (· = dir) (land env bundle) (fun _ => Switching dir) (fun _ => Switching dir)
      (Switching dir) := by
  intro start given
  have prepared := @prepareScratch_keepsOwn env bundle _ start given
  rw [land_run]
  cases ended : (prepareScratch env bundle).run start with
  | returned _ mid =>
      rw [ended] at prepared
      refine (Program.Triple.weaken (@replaceVersion_sparesOwn env bundle mid ordinary)
        (fun _ same => same) (fun _ last spared => ?_) (fun _ last spared => ?_)
        fun last spared => ?_) mid rfl
      all_goals exact .of_keepsOwn (KeepsOwn.trans prepared spared.kept)
  | threw _ mid =>
      rw [ended] at prepared
      exact .of_keepsOwn prepared
  | crashed mid =>
      rw [ended] at prepared
      exact .of_keepsOwn prepared

theorem removeEntry_same (mid : RulesDir) (name : String) :
    Same [name] mid (mid.removeEntry name) := by
  rw [removeEntry]
  split
  · split
    · exact same_erase _ _
    · exact Same.refl _ _
  · exact same_erase _ _

theorem linkCurrentTmp_same (mid : RulesDir) (target : String) :
    Same ["current.tmp"] mid (mid.linkCurrentTmp target) := by
  rw [linkCurrentTmp]
  split
  · exact Same.refl _ _
  · exact same_put _ _ _ _

theorem pointCurrent_switching {removal creation swap : Fault} {name : String}
    {raised : Stop → RulesDir → Prop} :
    Program.Triple (Switching dir) (pointCurrent removal creation swap name)
      (fun _ => Switching dir) raised (Switching dir) := by
  refine Program.Triple.bind (fun _ => Switching dir)
    (ignoring_preserves (fun _ kept => kept.change (removeEntry_same _ _)) fun _ _ kept => kept)
    fun _ => ?_
  refine Program.Triple.bind (fun _ => Switching dir)
    (ignoring_preserves (fun _ kept => kept.change (linkCurrentTmp_same _ _)) fun _ _ kept => kept)
    fun _ => failing_triple ?_ (fun _ _ kept _ => kept) fun _ _ kept => kept
  intro _ mid after kept swapped
  obtain ⟨source, _, _, _, arrived, same⟩ := swapCurrent_ok swapped
  refine ⟨(same "max_seq" (by decide)).trans kept.counter, fun _ => ?_⟩
  rw [arrived]
  simp

theorem storeMaxSeq_survive {mid : RulesDir} (kept : Switching dir mid) :
    Program.Triple (· = mid) (storeMaxSeq env bundle.header.seq)
      (fun _ => OwnSurvive bundle dir) (fun _ => OwnSurvive bundle dir)
      (OwnSurvive bundle dir) := by
  by_cases plain : mid.NoDirectory "max_seq.tmp"
  · have unstored : ∀ after, Unstored mid after → OwnSurvive bundle dir after := by
      intro after unstored
      refine Switching.survive ⟨(unstored.same "max_seq" (by decide)).trans kept.counter, ?_⟩
      rw [unstored.same "current" (by decide)]
      exact kept.link
    refine (storeMaxSeq_spec plain).weaken (fun _ given => given) ?_
      (fun _ after given => unstored after given.2.2) fun after given => unstored after given.2
    intro _ after stored
    refine ⟨.inr stored.stored, ?_⟩
    rw [stored.same "current" (by decide)]
    exact kept.link
  · -- A directory in the way of the temporary file: nothing is written.
    obtain ⟨rules, found⟩ : ∃ rules, mid.node? "max_seq.tmp" = some (.directory rules) := by
      by_contra none
      exact plain fun rules found => none ⟨rules, found⟩
    have refused : ∀ content, mid.writeFile "max_seq.tmp" content = (false, mid) := by
      intro content
      rw [writeFile, found]
    refine Program.Triple.bind (fun written after => written = false ∧ after = mid)
      (Program.Triple.step ?_ ?_ ?_) fun written => ?_
    · rintro _ _ rfl
      rw [refused]
      exact ⟨rfl, rfl⟩
    · rintro progress _ _ rfl
      cases progress with
      | zero => exact ⟨rfl, rfl⟩
      | succ progress => exact ⟨rfl, by rw [cut, refused]⟩
    · rintro progress _ _ rfl
      cases progress with
      | zero => exact kept.survive
      | succ progress =>
          rw [cut, refused]
          exact kept.survive
    · refine Program.Triple.bind (fun _ _ => False) (Program.Triple.ofExcept ?_ ?_)
        fun _ => Program.Triple.pointwise fun _ impossible => impossible.elim
      · rintro ⟨success⟩ _ _ ⟨failed, _⟩
        rw [failed] at success
        cases success
      · rintro _ _ _ ⟨_, rfl⟩
        exact kept.survive

theorem conclude_survive {manager : RuleManager} {self : DeviceIdentity}
    (ordinary : bundle.header.version ∉ ownNames) :
    Program.Triple (· = dir) (manager.conclude env self bundle)
      (fun _ => OwnSurvive bundle dir) (fun _ => OwnSurvive bundle dir)
      (OwnSurvive bundle dir) := by
  have unchanged : Switching dir dir := .of_keepsOwn fun _ _ _ => rfl
  rw [conclude]
  split
  next =>
    refine Program.Triple.bind (fun _ => Switching dir)
      ((land_switching ordinary).weaken (fun _ given => given) (fun _ _ given => given)
        (fun _ _ given => given.survive) fun _ given => given.survive) fun _ => ?_
    refine Program.Triple.bind (fun _ => OwnSurvive bundle dir) ?_ fun _ => ?_
    · refine Program.Triple.bind (fun _ => Switching dir)
        (pointCurrent_switching.weaken (fun _ given => given) (fun _ _ given => given)
          (fun _ _ given => given) fun _ given => given.survive) fun result => ?_
      refine Program.Triple.bind (fun _ => Switching dir)
        (rejectAfter_triple (fun _ _ given => given) fun _ _ _ given => given.survive) fun _ => ?_
      exact Program.Triple.pointwise fun mid kept => storeMaxSeq_survive kept
    · refine Program.Triple.bind (fun _ => OwnSurvive bundle dir)
        (runReload_preserves.weaken (fun _ given => given) (fun _ _ given => given)
          (fun _ _ given => given.2) fun _ given => given)
        fun _ => Program.Triple.pure fun _ given => given
  next =>
    exact Program.Triple.bind (fun _ => OwnSurvive bundle dir) (storeMaxSeq_survive unchanged)
      fun _ => Program.Triple.pure fun _ given => given

/-- A directory with an entry under the version's name and no scratch directory: the
entry goes and nothing takes its place. -/
theorem replaceVersion_removes :
    ((replaceVersion (fun _ => .none) bundle).run
      (RulesDir.empty.putDirectory bundle.header.version ⟨.empty, none⟩)).store =
        (RulesDir.empty.putDirectory bundle.header.version ⟨.empty, none⟩).erase
          bundle.header.version := by
  have absent : ((RulesDir.empty.putDirectory bundle.header.version ⟨.empty, none⟩).erase
      bundle.header.version).rename "rules.new" bundle.header.version rfl = .error .noEntry := by
    unfold rename
    split
    next => rfl
    next source found =>
      rw [node?_erase, node?_putDirectory] at found
      split at found
      · cases found
      · cases found
  have failed : landScratch bundle ((RulesDir.empty.putDirectory bundle.header.version
      ⟨.empty, none⟩).erase bundle.header.version) = .error .noEntry := by
    rw [landScratch, absent]
    rfl
  rw [replaceVersion]
  simp only [Program.run_bind, ignoring, failing, Program.run_step_none, Outcome.andThen_returned,
    failed, rejectAfter]
  rfl

/-- The steps on the version's path spare the manager's own entries, and the counter and
the active link survive every application, exactly for versions that are no own name. -/
theorem application_separate_iff (bundle : RuleBundle) :
    ((∀ env dir, SparesOwn bundle dir ((replaceVersion env bundle).run dir).store) ∧
      ∀ manager env self dir,
        OwnSurvive bundle dir ((conclude manager env self bundle).run dir).store) ↔
      bundle.header.version ∉ ownNames := by
  constructor
  · rintro ⟨spares, _⟩ own
    have spared := spares (fun _ => .none)
      (RulesDir.empty.putDirectory bundle.header.version ⟨.empty, none⟩)
    rw [replaceVersion_removes] at spared
    have gone : ((RulesDir.empty.putDirectory bundle.header.version ⟨.empty, none⟩).erase
        bundle.header.version).node? bundle.header.version = none := by
      rw [node?_erase, if_pos rfl]
    have there : (RulesDir.empty.putDirectory bundle.header.version
        ⟨.empty, none⟩).node? bundle.header.version = some (.directory ⟨.empty, none⟩) := by
      rw [node?_putDirectory, if_pos rfl]
    by_cases scratch : bundle.header.version = "rules.new"
    · have moved := spared.scratch
      rw [← scratch, gone, there] at moved
      rcases moved with same | ⟨_, same | ⟨_, _, _, same⟩⟩ <;> cases same
    · have kept := spared.kept _ own scratch
      rw [gone, there] at kept
      cases kept
  · intro ordinary
    exact ⟨fun env dir => (replaceVersion_sparesOwn ordinary).store_of rfl,
      fun manager env self dir => (conclude_survive ordinary).store_of rfl⟩

/-- A bundle of version `max_seq` replaces the counter by its rules; then the stored
number reads as zero. -/
theorem application_destroys_counter :
    let before := RulesDir.empty.putFile "max_seq" (seqText 4)
    let after := ((ruleManagerSample.applyBundle acceptingCrypto (sampleParse [(5, "max_seq")])
      (fun _ => .none) deviceSample 1500 (ruleText (5, "max_seq"))).run before).store
    validVersionName "max_seq" = true ∧ maxSeq before = 4 ∧ maxSeq after = 0 ∧
      after.node? "max_seq" ≠ before.node? "max_seq" ∧
      after.node? "max_seq" ≠ some (.file (seqText 5)) := by
  rw [RuleManager.applyBundle, sampleParse_self]
  decide +kernel

end RuleManager

end Idsm.Managerd
