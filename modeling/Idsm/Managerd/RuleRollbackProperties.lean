import Idsm.Managerd.RuleSwitchProperties

/-! Anti-rollback over whole runs of deliveries and restarts, with any step failing
or cut short. The stored sequence number keeps up with the active rules as long as
no step between the swap of `current` and the stored number goes wrong. -/

set_option autoImplicit false

namespace Idsm.Managerd

open Idsm.Foundation
open Idsm.Json (Value)

namespace RulesDir

/-- The names the manager uses for itself; version directories lie beside them. -/
def ownNames : List String := ["current", "current.tmp", "max_seq", "max_seq.tmp", "rules.new"]

/-- Each own name holds what the manager puts there. -/
structure Tidy (dir : RulesDir) : Prop where
  current : dir.node? "current" = none ∨
    ∃ target, dir.node? "current" = some (.link target) ∧ target ∉ ownNames
  currentTmp : dir.node? "current.tmp" = none ∨
    ∃ target, dir.node? "current.tmp" = some (.link target) ∧ target ∉ ownNames
  maxSeq : dir.NoDirectory "max_seq"
  maxSeqTmp : dir.NoDirectory "max_seq.tmp"
  scratch : ∀ content, dir.node? "rules.new" ≠ some (.file content)

theorem Tidy.currentPlain {dir : RulesDir} (tidy : dir.Tidy) : dir.NoDirectory "current" := by
  intro rules found
  rcases tidy.current with absent | ⟨target, linked, _⟩
  · rw [absent] at found
    cases found
  · rw [linked] at found
    cases found

theorem Tidy.currentTmpPlain {dir : RulesDir} (tidy : dir.Tidy) :
    dir.NoDirectory "current.tmp" := by
  intro rules found
  rcases tidy.currentTmp with absent | ⟨target, linked, _⟩
  · rw [absent] at found
    cases found
  · rw [linked] at found
    cases found

theorem Tidy.of_nodes {start dir : RulesDir} (tidy : start.Tidy)
    (current : dir.node? "current" = start.node? "current" ∨
      ∃ target, dir.node? "current" = some (.link target) ∧ target ∉ ownNames)
    (currentTmp : dir.node? "current.tmp" = none ∨
      dir.node? "current.tmp" = start.node? "current.tmp" ∨
      ∃ target, dir.node? "current.tmp" = some (.link target) ∧ target ∉ ownNames)
    (stored : dir.NoDirectory "max_seq") (storedTmp : dir.NoDirectory "max_seq.tmp")
    (scratch : ∀ content, dir.node? "rules.new" ≠ some (.file content)) : dir.Tidy where
  current := by
    rcases current with same | linked
    · rw [same]
      exact tidy.current
    · exact .inr linked
  currentTmp := by
    rcases currentTmp with gone | same | linked
    · exact .inl gone
    · rw [same]
      exact tidy.currentTmp
    · exact .inr linked
  maxSeq := stored
  maxSeqTmp := storedTmp
  scratch := scratch

/-- The sequence number of the bundle whose rules are active. -/
def activeSeq (dir : RulesDir) : Option Int := dir.active.bind fun active => active.2.origin

/-- The rules a version directory holds, as far as it is a directory. -/
def rulesAt (dir : RulesDir) (name : String) : Option RuleSet :=
  match dir.node? name with
  | some (.directory rules) => some rules
  | _ => none

theorem active_of_none {dir : RulesDir} (absent : dir.node? "current" = none) :
    dir.active = none := by
  simp [active, resolve, absent]

theorem active_of_link {dir : RulesDir} {target : String}
    (linked : dir.node? "current" = some (.link target)) (ordinary : target ∉ ownNames) :
    dir.active = (dir.rulesAt target).map fun rules => (target, rules) := by
  have plain : isLinkName target = false := by
    simp only [ownNames, List.mem_cons, List.not_mem_nil, or_false, not_or] at ordinary
    simp [isLinkName, ordinary.1, ordinary.2.1]
  simp only [active, resolve, linked, rulesAt]
  cases found : dir.node? target with
  | none => rfl
  | some entry =>
      cases entry with
      | file content => rfl
      | directory rules => rfl
      | link other => exact absurd (isLinkName_of_link found) (by simp [plain])

theorem activeSeq_of_link {dir : RulesDir} {target : String}
    (linked : dir.node? "current" = some (.link target)) (ordinary : target ∉ ownNames) :
    dir.activeSeq = (dir.rulesAt target).bind RuleSet.origin := by
  rw [activeSeq, active_of_link linked ordinary]
  cases dir.rulesAt target <;> rfl

theorem rulesAt_congr {dir later : RulesDir} {name : String}
    (same : later.node? name = dir.node? name) : later.rulesAt name = dir.rulesAt name := by
  rw [rulesAt, rulesAt, same]

/-- Removal never changes which bundle a version directory is from. -/
theorem rulesAt_of_shrunk {dir later : RulesDir} {name : String}
    (shrunk : Shrunk (dir.node? name) (later.node? name)) :
    (later.rulesAt name).bind RuleSet.origin = (dir.rulesAt name).bind RuleSet.origin ∨
      later.rulesAt name = none := by
  rcases shrunk with same | gone | ⟨rules, rules', found, left, origin⟩
  · exact .inl (by rw [rulesAt_congr same])
  · exact .inr (by rw [rulesAt, gone])
  · exact .inl (by simp only [rulesAt, found, left, Option.bind_some, origin])

end RulesDir

namespace RuleManager

open RulesDir

/-- What a store must satisfy so that no old bundle can come back. -/
structure Sound (dir : RulesDir) : Prop where
  tidy : dir.Tidy
  bounded : ∀ seq, dir.activeSeq = some seq → seq ≤ maxSeq dir

/-- One event: the stored number does not fall, and rules that become active are
newer than every stored number before. -/
structure Advances (dir later : RulesDir) : Prop where
  maxSeq : maxSeq dir ≤ maxSeq later
  active : later.activeSeq = dir.activeSeq ∨ later.activeSeq = none ∨
    ∃ seq, later.activeSeq = some seq ∧ RuleManager.maxSeq dir < seq

theorem maxSeq_congr {dir later : RulesDir}
    (same : later.node? "max_seq" = dir.node? "max_seq") : maxSeq later = maxSeq dir := by
  rw [maxSeq, maxSeq, same]

theorem maxSeq_of_file {dir : RulesDir} {content : List UInt8}
    (found : dir.node? "max_seq" = some (.file content)) :
    maxSeq dir = maxSeqOf (some content) := by
  simp only [maxSeq, found]

/-- The outcome of one event. -/
structure Kept (start dir : RulesDir) : Prop where
  sound : Sound dir
  advances : Advances start dir

section Stages

variable {start dir : RulesDir}

theorem Kept.refl (sound : Sound start) : Kept start start :=
  ⟨sound, ⟨le_refl _, .inl rfl⟩⟩

private theorem Kept.of_inactive (sound : Sound start) (tidy : dir.Tidy)
    (stored : maxSeq start ≤ maxSeq dir)
    (active : dir.activeSeq = start.activeSeq ∨ dir.activeSeq = none) : Kept start dir := by
  refine ⟨⟨tidy, ?_⟩, ⟨stored, active.imp_right .inl⟩⟩
  intro seq found
  rcases active with same | gone
  · exact (sound.bounded seq (same ▸ found)).trans stored
  · rw [gone] at found
    cases found

private theorem Kept.of_active {seq : Int} (tidy : dir.Tidy) (above : maxSeq start < seq)
    (stored : maxSeq dir = seq) (active : dir.activeSeq = some seq) : Kept start dir := by
  refine ⟨⟨tidy, ?_⟩, ⟨stored ▸ above.le, .inr (.inr ⟨seq, active, above⟩)⟩⟩
  intro seq' found
  rw [active, Option.some.injEq] at found
  rw [stored, found]

/-- While `current` is not touched, its rules can only have been removed. -/
private theorem active_of_untouched (tidy : start.Tidy)
    (current : dir.node? "current" = start.node? "current")
    (shrunk : ∀ target, start.node? "current" = some (.link target) → target ∉ ownNames →
      Shrunk (start.node? target) (dir.node? target)) :
    dir.activeSeq = start.activeSeq ∨ dir.activeSeq = none := by
  rcases tidy.current with absent | ⟨target, linked, ordinary⟩
  · left
    rw [activeSeq, activeSeq, active_of_none absent, active_of_none (current.trans absent)]
  · rw [activeSeq_of_link linked ordinary, activeSeq_of_link (current.trans linked) ordinary]
    rcases rulesAt_of_shrunk (shrunk target linked ordinary) with same | gone
    · exact .inl same
    · exact .inr (by rw [gone]; rfl)

/-- Own names lie outside what a phase may touch besides them. -/
theorem own_apart {version : String} (ordinary : version ∉ ownNames) :
    version ≠ "current" ∧ version ≠ "current.tmp" ∧ version ≠ "max_seq" ∧
      version ≠ "max_seq.tmp" ∧ version ≠ "rules.new" := by
  simpa [ownNames] using ordinary

section Switch

variable {bundle : RuleBundle} {mid later : RulesDir}

theorem unlanded_kept (sound : Sound start) (ordinary : bundle.header.version ∉ ownNames)
    (unlanded : Unlanded start bundle.header.version dir) : Kept start dir := by
  obtain ⟨current, currentTmp, stored, storedTmp, _⟩ := own_apart ordinary
  have same : ∀ name, name ≠ "rules.new" → name ≠ bundle.header.version →
      dir.node? name = start.node? name := fun name first second =>
    unlanded.same name (by simp [first, second])
  have tidy := sound.tidy
  refine Kept.of_inactive sound ?_ ?_ ?_
  · refine tidy.of_nodes (.inl (same _ (by decide) current.symm))
      (.inr (.inl (same _ (by decide) currentTmp.symm))) ?_ ?_ unlanded.scratch
    · intro rules
      rw [same _ (by decide) stored.symm]
      exact tidy.maxSeq rules
    · intro rules
      rw [same _ (by decide) storedTmp.symm]
      exact tidy.maxSeqTmp rules
  · exact (maxSeq_congr (same _ (by decide) stored.symm)).ge
  · refine active_of_untouched tidy (same _ (by decide) current.symm) ?_
    intro target _ targetOrdinary
    by_cases isVersion : target = bundle.header.version
    · rw [isVersion]
      exact unlanded.version
    · exact .inl (same target (own_apart targetOrdinary).2.2.2.2 isVersion)

/-- The new rules lie in place but `current` does not lead to them. -/
theorem unswapped_kept (sound : Sound start) (ordinary : bundle.header.version ∉ ownNames)
    (elsewhere : start.node? "current" ≠ some (.link bundle.header.version))
    (landed : Landed start bundle mid) (unswapped : Unswapped mid bundle.header.version dir) :
    Kept start dir := by
  obtain ⟨current, currentTmp, stored, storedTmp, scratch⟩ := own_apart ordinary
  have same : ∀ name, name ≠ "current.tmp" → name ≠ "rules.new" →
      name ≠ bundle.header.version → dir.node? name = start.node? name :=
    fun name first second third => (unswapped.same name (by simp [first])).trans
      (landed.same name (by simp [second, third]))
  have tidy := sound.tidy
  refine Kept.of_inactive sound ?_ ?_ ?_
  · refine tidy.of_nodes (.inl (same _ (by decide) (by decide) current.symm)) ?_ ?_ ?_ ?_
    · rcases unswapped.link with gone | kept | linked
      · exact .inl gone
      · exact .inr (.inl (kept.trans (landed.same _ (by simp [currentTmp.symm]))))
      · exact .inr (.inr ⟨_, linked, ordinary⟩)
    · intro rules
      rw [same _ (by decide) (by decide) stored.symm]
      exact tidy.maxSeq rules
    · intro rules
      rw [same _ (by decide) (by decide) storedTmp.symm]
      exact tidy.maxSeqTmp rules
    · intro content
      rw [unswapped.same _ (by decide), landed.scratch]
      simp
  · exact (maxSeq_congr (same _ (by decide) (by decide) stored.symm)).ge
  · refine active_of_untouched tidy (same _ (by decide) (by decide) current.symm) ?_
    intro target linked targetOrdinary
    refine .inl (same target (own_apart targetOrdinary).2.1 (own_apart targetOrdinary).2.2.2.2 ?_)
    rintro rfl
    exact elsewhere linked

/-- The switch-over is complete: the new rules are active and their number is stored. -/
theorem stored_kept (ordinary : bundle.header.version ∉ ownNames)
    (above : maxSeq start < bundle.header.seq) (small : bundle.header.seq < 2 ^ 63)
    (landed : Landed start bundle mid) (swapped : Swapped mid bundle.header.version later)
    (stored : Stored later bundle.header.seq dir) : Kept start dir := by
  obtain ⟨current, currentTmp, storedName, storedTmp, scratch⟩ := own_apart ordinary
  obtain ⟨rules, found, origin⟩ := landed.version
  have active : dir.node? "current" = some (.link bundle.header.version) :=
    (stored.same _ (by decide)).trans swapped.current
  have version : dir.node? bundle.header.version = some (.directory rules) := by
    rw [stored.same _ (by simp [storedName, storedTmp]),
      swapped.same _ (by simp [current, currentTmp]), found]
  refine Kept.of_active ⟨.inr ⟨_, active, ordinary⟩, .inl ?_, ?_, stored.plain, ?_⟩ above
    ((maxSeq_of_file stored.stored).trans (maxSeqOf_seqText bundle.header.positive small)) ?_
  · rw [stored.same _ (by decide), swapped.link]
  · intro other
    simp [stored.stored]
  · intro content
    rw [stored.same _ (by decide), swapped.same _ (by decide), landed.scratch]
    simp
  · rw [activeSeq_of_link active ordinary, rulesAt, version]
    exact origin

end Switch

section Skip

variable {seq : Int}

theorem unstored_kept (sound : Sound start) (unstored : Unstored start dir) : Kept start dir := by
  have tidy := sound.tidy
  have same : ∀ name, name ≠ "max_seq.tmp" → dir.node? name = start.node? name :=
    fun name outside => unstored.same name (by simp [outside])
  refine Kept.of_inactive sound ?_ ?_ ?_
  · refine tidy.of_nodes (.inl (same _ (by decide))) (.inr (.inl (same _ (by decide)))) ?_
      unstored.plain ?_
    · intro rules
      rw [same _ (by decide)]
      exact tidy.maxSeq rules
    · intro content
      rw [same _ (by decide)]
      exact tidy.scratch content
  · exact (maxSeq_congr (same _ (by decide))).ge
  · refine active_of_untouched tidy (same _ (by decide)) ?_
    intro target _ ordinary
    exact .inl (same target (own_apart ordinary).2.2.2.1)

theorem skipped_kept (sound : Sound start) (positive : 0 < seq) (small : seq < 2 ^ 63)
    (above : maxSeq start < seq) (stored : Stored start seq dir) : Kept start dir := by
  have tidy := sound.tidy
  have same : ∀ name, name ≠ "max_seq.tmp" → name ≠ "max_seq" → dir.node? name = start.node? name :=
    fun name first second => stored.same name (by simp [first, second])
  refine Kept.of_inactive sound ?_ ?_ ?_
  · refine tidy.of_nodes (.inl (same _ (by decide) (by decide)))
      (.inr (.inl (same _ (by decide) (by decide)))) ?_ stored.plain ?_
    · intro rules
      simp [stored.stored]
    · intro content
      rw [same _ (by decide) (by decide)]
      exact tidy.scratch content
  · rw [maxSeq_of_file stored.stored, maxSeqOf_seqText positive small]
    exact above.le
  · refine active_of_untouched tidy (same _ (by decide) (by decide)) ?_
    intro target _ ordinary
    exact .inl (same target (own_apart ordinary).2.2.2.1 (own_apart ordinary).2.2.1)

end Skip

end Stages

section Delivery

variable {env : RuleStep → Fault} {bundle : RuleBundle} {start : RulesDir}

/-- No reserved version name, no old link that cannot be removed, and once the new
rules are active no step fails before their number is stored. -/
structure CarefulSwitch (env : RuleStep → Fault) (bundle : RuleBundle) (dir : RulesDir) :
    Prop where
  ordinary : bundle.header.version ∉ ownNames
  fresh : dir.node? "current.tmp" = none ∨ ∀ progress, env .removeLink ≠ .fail progress
  stores : dir.node? "current" ≠ some (.link bundle.header.version) → env .swapLink = .none →
    env .writeMaxSeq = .none ∧ env .renameMaxSeq = .none
  restores : dir.node? "current" = some (.link bundle.header.version) →
    env .renameVersion = .none →
    env .removeLink = .none ∧ env .createLink = .none ∧ env .swapLink = .none ∧
      env .writeMaxSeq = .none ∧ env .renameMaxSeq = .none

/-- After the swap the careful steps store the number. -/
private theorem store_after_swap (sound : Sound start) {mid later : RulesDir}
    (ordinary : bundle.header.version ∉ ownNames) (above : maxSeq start < bundle.header.seq)
    (small : bundle.header.seq < 2 ^ 63) (landed : Landed start bundle mid)
    (swapped : Swapped mid bundle.header.version later)
    (write : env .writeMaxSeq = .none) (rename : env .renameMaxSeq = .none) :
    Program.Triple (· = later) (storeMaxSeq env bundle.header.seq) (fun _ => Kept start)
      (fun stop dir => (∃ err, stop = .rejected err) ∧ Kept start dir) (Kept start) := by
  obtain ⟨_, _, storedName, storedTmp, _⟩ := own_apart ordinary
  have kept : ∀ name, name ≠ "current" → name ≠ "current.tmp" → name ≠ "rules.new" →
      name ≠ bundle.header.version → later.node? name = start.node? name :=
    fun name first second third fourth => (swapped.same name (by simp [first, second])).trans
      (landed.same name (by simp [third, fourth]))
  have storedPlain : later.NoDirectory "max_seq" := by
    intro rules
    rw [kept _ (by decide) (by decide) (by decide) storedName.symm]
    exact sound.tidy.maxSeq rules
  have tmpPlain : later.NoDirectory "max_seq.tmp" := by
    intro rules
    rw [kept _ (by decide) (by decide) (by decide) storedTmp.symm]
    exact sound.tidy.maxSeqTmp rules
  refine Program.Triple.weaken (storeMaxSeq_spec tmpPlain) (fun _ given => given) ?_ ?_ ?_
  · exact fun _ dir stored => stored_kept ordinary above small landed swapped stored
  · rintro stop dir ⟨_, cause, _⟩
    rcases cause with faulty | faulty | faulty
    · exact absurd write faulty
    · exact absurd rename faulty
    · exact absurd storedPlain faulty
  · rintro dir ⟨cause, _⟩
    rcases cause with faulty | faulty
    · exact absurd write faulty
    · exact absurd rename faulty

theorem activate_kept (sound : Sound start) (careful : CarefulSwitch env bundle start)
    (above : maxSeq start < bundle.header.seq) (small : bundle.header.seq < 2 ^ 63)
    (clean : env .renameVersion = .none) {mid : RulesDir} (landed : Landed start bundle mid) :
    Program.Triple (· = mid) (activate env bundle) (fun _ => Kept start)
      (fun stop dir => (∃ err, stop = .rejected err) ∧ Kept start dir) (Kept start) := by
  obtain ⟨current, currentTmp, _, _, _⟩ := own_apart careful.ordinary
  have tmpSame : mid.node? "current.tmp" = start.node? "current.tmp" :=
    landed.same _ (by simp [currentTmp.symm])
  have currentSame : mid.node? "current" = start.node? "current" :=
    landed.same _ (by simp [current.symm])
  have tmpPlain : mid.NoDirectory "current.tmp" := by
    intro rules
    rw [tmpSame]
    exact sound.tidy.currentTmpPlain rules
  have currentPlain : mid.NoDirectory "current" := by
    intro rules
    rw [currentSame]
    exact sound.tidy.currentPlain rules
  -- A failed swap is harmless unless the link already leads to the new directory.
  have failed : (env .removeLink ≠ .none ∨ env .createLink ≠ .none ∨ env .swapLink ≠ .none) →
      ∀ dir, Unswapped mid bundle.header.version dir → Kept start dir := by
    intro cause dir unswapped
    by_cases linked : start.node? "current" = some (.link bundle.header.version)
    · obtain ⟨removal, creation, swap, _⟩ := careful.restores linked clean
      rcases cause with faulty | faulty | faulty
      · exact absurd removal faulty
      · exact absurd creation faulty
      · exact absurd swap faulty
    · exact unswapped_kept sound careful.ordinary linked landed unswapped
  refine Program.Triple.bind _
    (pointCurrent_spec tmpPlain currentPlain (tmpSame ▸ careful.fresh) |>.weaken
      (fun _ given => given) (fun _ _ given => given) (fun _ _ given => given)
      fun dir given => failed given.1 dir given.2) fun result => ?_
  refine Program.Triple.bind (fun _ dir => env .swapLink = .none ∧
    Swapped mid bundle.header.version dir) (rejectAfter_triple ?_ ?_) fun _ => ?_
  · exact fun passed dir given => given.1 passed
  · intro errno refused dir given
    obtain ⟨cause, unswapped⟩ := given.2 errno refused
    exact ⟨⟨_, rfl⟩, failed (.inr cause) dir unswapped⟩
  refine Program.Triple.pointwise fun later given => ?_
  obtain ⟨swap, swapped⟩ := given
  have storing : env .writeMaxSeq = .none ∧ env .renameMaxSeq = .none := by
    by_cases linked : start.node? "current" = some (.link bundle.header.version)
    · exact (careful.restores linked clean).2.2.2
    · exact careful.stores linked swap
  exact store_after_swap sound careful.ordinary above small landed swapped storing.1 storing.2

theorem runReload_preserves {manager : RuleManager} {holds : RulesDir → Prop} :
    Program.Triple holds (runReload env manager) (fun _ => holds)
      (fun stop dir => (∃ err, stop = .rejected err) ∧ holds dir) holds := by
  rw [runReload]
  split
  · exact Program.Triple.pure fun _ given => given
  refine Program.Triple.bind (fun _ => holds) (Program.Triple.step (fun _ _ given => given)
    (fun _ _ _ given => given) fun _ _ _ given => given) fun succeeded => ?_
  refine Program.Triple.bind (fun _ => holds) (Program.Triple.ofExcept (fun _ _ _ given => given)
    ?_) fun _ => Program.Triple.pure fun _ given => given
  intro stop refused dir given
  rw [require] at refused
  split at refused
  · cases refused
  · exact ⟨⟨_, (Except.error.inj refused).symm⟩, given⟩

/-- An accepted bundle is newer than the stored number even when that was not
readable, and a bundle for this device switches carefully. -/
def CarefulDelivery (manager : RuleManager) (crypto : Crypto) (env : RuleStep → Fault)
    (self : DeviceIdentity) (now : Int) (document : Value) (dir : RulesDir) : Prop :=
  ∀ bundle, manager.accept crypto now (readSeq env dir) document = .ok bundle →
    maxSeq dir < bundle.header.seq ∧
      (bundle.header.target.hits self = true → CarefulSwitch env bundle dir)

theorem seq_lt_of_accept {manager : RuleManager} {crypto : Crypto} {now maxSeq : Int}
    {document : Value} (accepted : manager.accept crypto now maxSeq document = .ok bundle) :
    bundle.header.seq < 2 ^ 63 := by
  obtain ⟨draft, read, drawn⟩ := accept_eq_ok.1 accepted
  rw [drawn.header]
  exact (Value.getLongLong_bounds (readScalars_eq_ok.1 read.scalars).seq).2

theorem applyChecked_kept {manager : RuleManager} {crypto : Crypto} {self : DeviceIdentity}
    {now : Int} {document : Value} (sound : Sound start)
    (careful : CarefulDelivery manager crypto env self now document start) :
    Program.Triple (· = start) (manager.applyChecked crypto env self now document)
      (fun _ => Kept start) (fun _ => Kept start) (Kept start) := by
  have unchanged : Kept start start := Kept.refl sound
  refine applyChecked_triple (fun _ => unchanged) unchanged fun bundle accepted => ?_
  obtain ⟨above, switching⟩ := careful bundle accepted
  have small := seq_lt_of_accept accepted
  rw [conclude]
  by_cases hit : bundle.header.target.hits self = true
  · rw [if_pos hit]
    have switch := switching hit
    obtain ⟨_, _, _, _, scratch⟩ := own_apart switch.ordinary
    refine Program.Triple.bind _ ((land_spec scratch sound.tidy.scratch).weaken
      (fun _ given => given) (fun _ _ given => given)
      (fun _ _ given => unlanded_kept sound switch.ordinary given.2)
      fun _ given => unlanded_kept sound switch.ordinary given) fun _ => ?_
    refine Program.Triple.bind (fun _ => Kept start) ?_ fun _ => ?_
    · refine Program.Triple.pointwise fun mid ⟨clean, landed⟩ => ?_
      exact (activate_kept sound switch above small clean landed).weaken (fun _ given => given)
        (fun _ _ given => given) (fun _ _ given => given.2) fun _ given => given
    · refine Program.Triple.bind (fun _ => Kept start) (runReload_preserves.weaken
        (fun _ given => given) (fun _ _ given => given) (fun _ _ given => given.2)
        fun _ given => given) fun _ => Program.Triple.pure fun _ given => given
  · rw [if_neg hit]
    refine Program.Triple.bind (fun _ => Kept start) ?_ fun _ => Program.Triple.pure
      fun _ given => given
    refine (storeMaxSeq_spec sound.tidy.maxSeqTmp).weaken (fun _ given => given) ?_ ?_ ?_
    · exact fun _ _ stored => skipped_kept sound bundle.header.positive small above stored
    · exact fun _ _ given => unstored_kept sound given.2.2
    · exact fun _ given => unstored_kept sound given.2

end Delivery

section Seeding

variable {env : SeedStep → Fault} {start : RulesDir}

/-- A start seeds only when `current` leads nowhere; then no old link may be stuck. -/
def CarefulStart (manager : RuleManager) (env : SeedStep → Fault) (dir : RulesDir) : Prop :=
  dir.resolve 40 "current" = none → manager.seedDir ≠ none →
    dir.node? "current.tmp" = none ∨ ∀ progress, env .removeLink ≠ .fail progress

theorem node?_of_unresolved {dir : RulesDir} {target : String} (ordinary : target ∉ ownNames)
    (linked : dir.node? "current" = some (.link target))
    (unresolved : dir.resolve 40 "current" = none) : dir.node? target = none := by
  simp only [resolve, linked] at unresolved
  cases found : dir.node? target with
  | none => rfl
  | some entry =>
      cases entry with
      | file content => simp [found] at unresolved
      | directory rules => simp [found] at unresolved
      | link other =>
          have named := isLinkName_of_link found
          simp only [isLinkName, Bool.or_eq_true, beq_iff_eq] at named
          obtain ⟨current, currentTmp, _⟩ := own_apart ordinary
          rcases named with named | named
          · exact absurd named current
          · exact absurd named currentTmp

/-- The seeding has touched `v0` only, and what it put there is no bundle's. -/
structure Seeding (start dir : RulesDir) : Prop where
  same : Same ["v0"] start dir
  image : start.node? "v0" = none → ∀ rules, dir.node? "v0" = some (.directory rules) →
    rules.origin = none

private theorem Seeding.change {dir later : RulesDir} (seeding : Seeding start dir)
    (same : Same ["v0"] dir later)
    (image : (∀ rules, dir.node? "v0" = some (.directory rules) → rules.origin = none) →
      ∀ rules, later.node? "v0" = some (.directory rules) → rules.origin = none) :
    Seeding start later :=
  ⟨seeding.same.trans same, fun absent => image (seeding.image absent)⟩

private theorem copySeed_ok {files : List (String × List UInt8)} {dir later : RulesDir}
    (copied : copySeed files dir = .ok later) :
    Same ["v0"] dir later ∧
      ∃ rules, later.node? "v0" = some (.directory rules) ∧ rules.origin = none := by
  rw [copySeed] at copied
  split at copied
  · cases copied
    exact ⟨same_putDirectory _ _ _, _, by rw [node?_putDirectory, if_pos rfl], rfl⟩
  · cases copied
    exact ⟨same_putDirectory _ _ _, _, by rw [node?_putDirectory, if_pos rfl], rfl⟩
  · cases copied

private theorem copySome_seeding {dir : RulesDir} (files : List (String × List UInt8))
    (progress : Nat) (seeding : Seeding start dir) :
    Seeding start (copySome files progress dir) := by
  simp only [copySome]
  split
  next later copied =>
    obtain ⟨same, rules, found, origin⟩ := copySeed_ok copied
    refine seeding.change same fun _ rules' found' => ?_
    rw [found, Option.some.injEq, Entry.directory.injEq] at found'
    exact found' ▸ origin
  next => exact seeding

private theorem removeSome_seeding {dir : RulesDir} (progress : Nat) (seeding : Seeding start dir) :
    Seeding start (dir.removeSome "v0" progress) := by
  refine seeding.change (same_removeSome _ _ _) fun image rules found => ?_
  rw [removeSome] at found
  split at found
  next rules' found' =>
    rw [node?_putDirectory, if_pos rfl, Option.some.injEq, Entry.directory.injEq] at found
    rw [← found]
    exact image rules' found'
  next => exact image rules found

private theorem seeding_kept (sound : Sound start) {dir : RulesDir}
    (unresolved : start.resolve 40 "current" = none) (seeding : Seeding start dir)
    {later : RulesDir} (same : Same ["current.tmp"] dir later)
    (link : later.node? "current.tmp" = none ∨
      later.node? "current.tmp" = start.node? "current.tmp" ∨
      later.node? "current.tmp" = some (.link "v0")) : Kept start later := by
  have tidy := sound.tidy
  have kept : ∀ name, name ≠ "v0" → name ≠ "current.tmp" → later.node? name = start.node? name :=
    fun name first second => (same name (by simp [second])).trans
      (seeding.same name (by simp [first]))
  refine Kept.of_inactive sound ?_ ?_ ?_
  · refine tidy.of_nodes (.inl (kept _ (by decide) (by decide)))
      (link.imp_right (Or.imp_right fun linked => ⟨_, linked, by decide⟩)) ?_ ?_ ?_
    · intro rules
      rw [kept _ (by decide) (by decide)]
      exact tidy.maxSeq rules
    · intro rules
      rw [kept _ (by decide) (by decide)]
      exact tidy.maxSeqTmp rules
    · intro content
      rw [kept _ (by decide) (by decide)]
      exact tidy.scratch content
  · exact (maxSeq_congr (kept _ (by decide) (by decide))).ge
  · have current := kept "current" (by decide) (by decide)
    rcases tidy.current with absent | ⟨target, linked, ordinary⟩
    · right
      rw [activeSeq, active_of_none (current.trans absent)]
      rfl
    · rw [activeSeq_of_link linked ordinary, activeSeq_of_link (current.trans linked) ordinary]
      by_cases image : target = "v0"
      · right
        subst image
        have missing := node?_of_unresolved ordinary linked unresolved
        rw [rulesAt, same _ (by decide)]
        cases found : dir.node? "v0" with
        | none => rfl
        | some entry =>
            cases entry with
            | file content => rfl
            | link other => rfl
            | directory rules => exact seeding.image missing rules found
      · left
        rw [rulesAt_congr (kept target image (own_apart ordinary).2.1)]

theorem seedFromImageDefaults_kept {manager : RuleManager} (sound : Sound start)
    (careful : CarefulStart manager env start) :
    Program.Triple (· = start) (manager.seedFromImageDefaults env) (fun _ => Kept start)
      (fun _ => Kept start) (Kept start) := by
  have unchanged : Kept start start := Kept.refl sound
  refine Program.Triple.bind
    (fun current dir => current = start.resolve 40 "current" ∧ dir = start)
    (Program.Triple.inspect ?_) fun current => ?_
  · rintro dir rfl
    exact ⟨rfl, rfl⟩
  refine Program.Triple.pointwise fun dir ⟨looked, same⟩ => ?_
  subst same
  cases current with
  | some found =>
      exact Program.Triple.pure fun later given => by
        subst given
        exact unchanged
  | none =>
  cases image : manager.seedDir with
  | none =>
      exact Program.Triple.pure fun later given => by
        subst given
        exact unchanged
  | some seed =>
  have unresolved := looked.symm
  have fresh := careful unresolved (by simp [image])
  have begun : Seeding dir dir := by
    refine ⟨Same.refl _ _, fun absent rules found => ?_⟩
    rw [absent] at found
    cases found
  have stays : ∀ later, Seeding dir later → Kept dir later := fun later seeding =>
    seeding_kept sound unresolved seeding (Same.refl _ _)
      (.inr (.inl (seeding.same _ (by decide))))
  refine Program.Triple.bind (fun _ => Seeding dir) (ignoring_triple ?_ ?_ ?_) fun _ => ?_
  · rintro _ later rfl
    refine begun.change (same_erase _ _) fun _ rules found => ?_
    simp [node?_erase] at found
  · rintro progress _ later rfl
    exact removeSome_seeding progress begun
  · rintro progress _ later rfl
    exact stays _ (removeSome_seeding progress begun)
  refine Program.Triple.bind
    (fun result later => Seeding dir later ∧ (result = .ok () →
      ∃ rules, later.node? "v0" = some (.directory rules) ∧ rules.origin = none))
    (Program.Triple.step ?_ ?_ ?_) fun copied => ?_
  · rintro _ later seeding
    split
    next arrived copying =>
      obtain ⟨same, rules, found, origin⟩ := copySeed_ok copying
      refine ⟨seeding.change same fun _ rules' found' => ?_, fun _ => ⟨rules, found, origin⟩⟩
      rw [found, Option.some.injEq, Entry.directory.injEq] at found'
      exact found' ▸ origin
    next => exact ⟨seeding, fun impossible => nomatch impossible⟩
  · exact fun progress _ later seeding =>
      ⟨copySome_seeding _ progress seeding, fun impossible => nomatch impossible⟩
  · exact fun progress _ later seeding => stays _ (copySome_seeding _ progress seeding)
  refine Program.Triple.bind
    (fun _ later => Seeding dir later ∧
      ∃ rules, later.node? "v0" = some (.directory rules) ∧ rules.origin = none)
    (rejectAfter_triple (fun passed later given => ⟨given.1, given.2 passed⟩)
      fun _ _ later given => stays later given.1) fun _ => ?_
  refine Program.Triple.pointwise fun mid ⟨seeding, rules, found, origin⟩ => ?_
  have tmpSame := seeding.same "current.tmp" (by decide)
  have currentSame := seeding.same "current" (by decide)
  have tmpPlain : mid.NoDirectory "current.tmp" := fun rules =>
    tmpSame ▸ sound.tidy.currentTmpPlain rules
  have currentPlain : mid.NoDirectory "current" := fun rules =>
    currentSame ▸ sound.tidy.currentPlain rules
  have failed : ∀ later, Unswapped mid "v0" later → Kept dir later := fun later unswapped =>
    seeding_kept sound unresolved seeding unswapped.same
      (unswapped.link.imp_right (Or.imp_left (·.trans tmpSame)))
  refine Program.Triple.bind _
    ((pointCurrent_spec tmpPlain currentPlain (tmpSame ▸ fresh)).weaken (fun _ given => given)
      (fun _ _ given => given) (fun _ _ given => given) fun later given => failed later given.2)
    fun result => rejectAfter_triple ?_ fun errno refused later given =>
      failed later (given.2 errno refused).2
  intro passed later given
  obtain ⟨_, swapped⟩ := given.1 passed
  have tidy := sound.tidy
  have kept : ∀ name, name ≠ "v0" → name ≠ "current" → name ≠ "current.tmp" →
      later.node? name = dir.node? name := fun name first second third =>
    (swapped.same name (by simp [second, third])).trans (seeding.same name (by simp [first]))
  refine Kept.of_inactive sound ?_ ?_ (.inr ?_)
  · refine tidy.of_nodes (.inr ⟨_, swapped.current, by decide⟩) (.inl swapped.link) ?_ ?_ ?_
    · intro rules
      rw [kept _ (by decide) (by decide) (by decide)]
      exact tidy.maxSeq rules
    · intro rules
      rw [kept _ (by decide) (by decide) (by decide)]
      exact tidy.maxSeqTmp rules
    · intro content
      rw [kept _ (by decide) (by decide) (by decide)]
      exact tidy.scratch content
  · exact (maxSeq_congr (kept _ (by decide) (by decide) (by decide))).ge
  · rw [activeSeq_of_link swapped.current (by decide), rulesAt, swapped.same _ (by decide), found]
    exact origin

end Seeding

/-- What happens to a rules directory: the cloud sends a text, or the daemon starts. -/
inductive RuleEvent where
  | deliver (jsonText : List UInt8) (now : Int) (env : RuleStep → Fault)
  | restart (env : SeedStep → Fault)

section Runs

variable (manager : RuleManager) (crypto : Crypto)
  (parse : List UInt8 → Except (List UInt8) Value) (self : DeviceIdentity)

/-- The directory an event leaves, however the call ended. -/
def afterEvent (dir : RulesDir) : RuleEvent → RulesDir
  | .deliver jsonText now env =>
      ((manager.applyBundle crypto parse env self now jsonText).run dir).store
  | .restart env => ((manager.seedFromImageDefaults env).run dir).store

def CarefulEvent (dir : RulesDir) : RuleEvent → Prop
  | .deliver jsonText now env => ∀ document, parse jsonText = .ok document →
      CarefulDelivery manager crypto env self now document dir
  | .restart env => CarefulStart manager env dir

def history (dir : RulesDir) : List RuleEvent → List RulesDir
  | [] => [dir]
  | event :: rest => dir :: history (afterEvent manager crypto parse self dir event) rest

def CarefulRun (dir : RulesDir) : List RuleEvent → Prop
  | [] => True
  | event :: rest => CarefulEvent manager crypto parse self dir event ∧
      CarefulRun (afterEvent manager crypto parse self dir event) rest

/-- The sequence numbers that successively become active. -/
def activations : List RulesDir → List Int
  | first :: second :: rest =>
      (if second.activeSeq = first.activeSeq then [] else second.activeSeq.toList) ++
        activations (second :: rest)
  | _ => []

variable {manager crypto parse self}

theorem afterEvent_kept {dir : RulesDir} {event : RuleEvent} (sound : Sound dir)
    (careful : CarefulEvent manager crypto parse self dir event) :
    Kept dir (afterEvent manager crypto parse self dir event) := by
  cases event with
  | restart env => exact (seedFromImageDefaults_kept sound careful).store_of rfl
  | deliver jsonText now env =>
      rw [afterEvent, applyBundle]
      cases parsed : parse jsonText with
      | error what => exact Kept.refl sound
      | ok document =>
          have checked := applyChecked_kept sound (careful document parsed)
          exact (checked.handle (fun _ _ _ _ given => given) fun _ _ _ _ given => given).store_of rfl

theorem maxSeq_le_of_mem_history {events : List RuleEvent} {dir later : RulesDir}
    (sound : Sound dir) (careful : CarefulRun manager crypto parse self dir events)
    (member : later ∈ history manager crypto parse self dir events) :
    maxSeq dir ≤ maxSeq later ∧ Sound later := by
  induction events generalizing dir with
  | nil =>
      rw [history, List.mem_singleton] at member
      subst member
      exact ⟨le_refl _, sound⟩
  | cons event rest ih =>
      rw [history, List.mem_cons] at member
      rcases member with rfl | member
      · exact ⟨le_refl _, sound⟩
      · have kept := afterEvent_kept sound careful.1
        obtain ⟨above, sound'⟩ := ih kept.sound careful.2 member
        exact ⟨kept.advances.maxSeq.trans above, sound'⟩

theorem activations_history_cons (dir : RulesDir) (event : RuleEvent) (rest : List RuleEvent) :
    activations (history manager crypto parse self dir (event :: rest)) =
      (if (afterEvent manager crypto parse self dir event).activeSeq = dir.activeSeq then []
        else (afterEvent manager crypto parse self dir event).activeSeq.toList) ++
      activations (history manager crypto parse self
        (afterEvent manager crypto parse self dir event) rest) := by
  cases rest with
  | nil => rfl
  | cons next rest => rfl

private theorem new_active {dir later : RulesDir} {seq : Int} (kept : Kept dir later)
    (member : seq ∈ if later.activeSeq = dir.activeSeq then [] else later.activeSeq.toList) :
    maxSeq dir < seq ∧ seq ≤ maxSeq later := by
  split at member
  next => cases member
  next changed =>
    rw [Option.mem_toList] at member
    refine ⟨?_, kept.sound.bounded seq member⟩
    rcases kept.advances.active with same | gone | ⟨seq', active, above⟩
    · exact absurd same changed
    · rw [gone] at member
      cases member
    · rw [active, Option.some.injEq] at member
      exact member ▸ above

theorem lt_of_mem_activations {events : List RuleEvent} {dir : RulesDir} {seq : Int}
    (sound : Sound dir) (careful : CarefulRun manager crypto parse self dir events)
    (member : seq ∈ activations (history manager crypto parse self dir events)) :
    maxSeq dir < seq := by
  induction events generalizing dir with
  | nil => simp [history, activations] at member
  | cons event rest ih =>
      have kept := afterEvent_kept sound careful.1
      rw [activations_history_cons, List.mem_append] at member
      rcases member with here | later
      · exact (new_active kept here).1
      · exact lt_of_le_of_lt kept.advances.maxSeq (ih kept.sound careful.2 later)

theorem activations_ascending {events : List RuleEvent} {dir : RulesDir} (sound : Sound dir)
    (careful : CarefulRun manager crypto parse self dir events) :
    (activations (history manager crypto parse self dir events)).Pairwise (· < ·) := by
  induction events generalizing dir with
  | nil => simp [history, activations]
  | cons event rest ih =>
      have kept := afterEvent_kept sound careful.1
      rw [activations_history_cons, List.pairwise_append]
      refine ⟨?_, ih kept.sound careful.2, ?_⟩
      · split
        · exact List.Pairwise.nil
        · cases (afterEvent manager crypto parse self dir event).activeSeq <;> simp
      · intro first here second later
        exact lt_of_le_of_lt (new_active kept here).2
          (lt_of_mem_activations kept.sound careful.2 later)

theorem maxSeq_history_monotone {events : List RuleEvent} {dir : RulesDir} (sound : Sound dir)
    (careful : CarefulRun manager crypto parse self dir events) :
    (history manager crypto parse self dir events).Pairwise
      fun first second => maxSeq first ≤ maxSeq second := by
  induction events generalizing dir with
  | nil => simp [history]
  | cons event rest ih =>
      have kept := afterEvent_kept sound careful.1
      rw [history, List.pairwise_cons]
      refine ⟨fun later member => ?_, ih kept.sound careful.2⟩
      exact kept.advances.maxSeq.trans (maxSeq_le_of_mem_history kept.sound careful.2 member).1

/-- In a careful run the active sequence numbers ascend, the stored one never falls
and it is never behind the active one. -/
theorem antiRollback_of_careful {events : List RuleEvent} {dir : RulesDir} (sound : Sound dir)
    (careful : CarefulRun manager crypto parse self dir events) :
    (activations (history manager crypto parse self dir events)).Pairwise (· < ·) ∧
      (history manager crypto parse self dir events).Pairwise
        (fun first second => maxSeq first ≤ maxSeq second) ∧
      ∀ later ∈ history manager crypto parse self dir events,
        ∀ seq, later.activeSeq = some seq → seq ≤ maxSeq later :=
  ⟨activations_ascending sound careful, maxSeq_history_monotone sound careful,
    fun _ member => (maxSeq_le_of_mem_history sound careful member).2.bounded⟩

end Runs

theorem sound_empty : Sound .empty where
  tidy := ⟨.inl rfl, .inl rfl, fun _ => by simp, fun _ => by simp, by simp⟩
  bounded := by
    intro seq found
    rw [activeSeq, active_of_none rfl] at found
    cases found

/-- Without faults only a reserved version name is careless. -/
theorem carefulDelivery_of_faultless {manager : RuleManager} {crypto : Crypto}
    {self : DeviceIdentity} {now : Int} {document : Value} {dir : RulesDir}
    (ordinary : ∀ bundle, manager.accept crypto now (maxSeq dir) document = .ok bundle →
      bundle.header.version ∉ ownNames) :
    CarefulDelivery manager crypto (fun _ => .none) self now document dir := by
  intro bundle accepted
  obtain ⟨draft, _, drawn⟩ := accept_eq_ok.1 accepted
  refine ⟨?_, fun _ => ⟨ordinary bundle accepted, .inr fun _ => by simp, fun _ _ => ⟨rfl, rfl⟩,
    fun _ _ => ⟨rfl, rfl, rfl, rfl, rfl⟩⟩⟩
  rw [drawn.header]
  exact drawn.above

theorem antiRollback_sample :
    let states := history ruleManagerSample acceptingCrypto (sampleParse [(5, "v5")]) deviceSample
      .empty [.restart fun _ => .none, .deliver (ruleText (5, "v5")) 1500 fun _ => .none]
    (activations states).Pairwise (· < ·) ∧
      states.Pairwise (fun first second => maxSeq first ≤ maxSeq second) ∧
      ∀ later ∈ states, ∀ seq, later.activeSeq = some seq → seq ≤ maxSeq later := by
  refine antiRollback_of_careful sound_empty ⟨fun _ _ => .inl rfl, ?_, trivial⟩
  intro document parsed
  have read : document = ruleDocument 5 "v5" "all" "all" := by
    simp only [sampleParse, List.find?_singleton] at parsed
    split at parsed
    next sample found =>
      split at found
      · cases found
        exact (Except.ok.inj parsed).symm
      · cases found
    next => cases parsed
  refine carefulDelivery_of_faultless fun bundle accepted => ?_
  obtain ⟨draft, source, drawn⟩ := accept_eq_ok.1 accepted
  have version := (readScalars_eq_ok.1 source.scalars).version
  have named : "v5" = draft.scalars.version := by
    simpa [read, ruleDocument, Value.field, Value.member?, Value.getString] using version
  rw [drawn.header]
  show draft.scalars.version ∉ ownNames
  rw [← named]
  decide

/-- The sequence file cannot be written after the swap; then an older bundle is replayed. -/
theorem antiRollback_broken :
    ¬ ∀ events,
      (activations (history ruleManagerSample acceptingCrypto
        (sampleParse [(3, "v3"), (5, "v5")]) deviceSample .empty events)).Pairwise (· < ·) := by
  intro ascending
  have replayed : activations (history ruleManagerSample acceptingCrypto
      (sampleParse [(3, "v3"), (5, "v5")]) deviceSample .empty
      [.deliver (ruleText (5, "v5")) 1500 fun step =>
          if step = .writeMaxSeq then .fail 0 else .none,
        .deliver (ruleText (3, "v3")) 1500 fun _ => .none]) = [5, 3] := by
    decide +kernel
  have ordered := ascending [.deliver (ruleText (5, "v5")) 1500 fun step =>
      if step = .writeMaxSeq then .fail 0 else .none,
    .deliver (ruleText (3, "v3")) 1500 fun _ => .none]
  rw [replayed] at ordered
  exact absurd ordered (by decide)

end RuleManager

end Idsm.Managerd
