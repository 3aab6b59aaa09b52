import Idsm.Managerd.RuleRollbackProperties

/-! Atomicity of one application over every way its steps may end. A text that
puts no rules in place leaves the active rules alone; a text that does can always
be cut off or made to fail so that they are lost, or new behind a refusal. -/

set_option autoImplicit false

namespace Idsm.Managerd

open Idsm.Foundation
open Idsm.Json (Value)

namespace RulesDir

/-- What the probes see: the directory and its files. -/
def visible (dir : RulesDir) : Option (String × OrderedMap String (List UInt8)) :=
  dir.active.map fun active => (active.1, active.2.files)

/-- Entries differ only where neither directory has a directory or a link. -/
def Quiet (first second : RulesDir) : Prop :=
  ∀ name, second.node? name = first.node? name ∨
    (isLinkName name = false ∧ first.NoDirectory name ∧ second.NoDirectory name)

theorem Quiet.refl (dir : RulesDir) : Quiet dir dir := fun _ => .inl rfl

/-- The rules a link chain leads to. -/
def rulesBehind (dir : RulesDir) (hops : Nat) (name : String) : Option (String × RuleSet) :=
  match dir.resolve hops name with
  | some (found, .directory rules) => some (found, rules)
  | _ => none

theorem rulesBehind_of_quiet {first second : RulesDir} (quiet : Quiet first second) (hops : Nat)
    (name : String) : second.rulesBehind hops name = first.rulesBehind hops name := by
  induction hops generalizing name with
  | zero => rfl
  | succ hops ih =>
      rcases quiet name with same | ⟨plain, firstPlain, secondPlain⟩
      · simp only [rulesBehind, resolve, same]
        cases first.node? name with
        | none => rfl
        | some entry =>
            cases entry with
            | file content => rfl
            | directory rules => rfl
            | link target => exact ih target
      · have nothing : ∀ dir : RulesDir, dir.NoDirectory name →
            dir.rulesBehind (hops + 1) name = none := by
          intro dir free
          simp only [rulesBehind, resolve]
          cases found : dir.node? name with
          | none => rfl
          | some entry =>
              cases entry with
              | file content => rfl
              | directory rules => exact absurd found (free rules)
              | link target => exact absurd (isLinkName_of_link found) (by simp [plain])
        rw [nothing first firstPlain, nothing second secondPlain]

theorem visible_of_quiet {first second : RulesDir} (quiet : Quiet first second) :
    second.visible = first.visible := by
  have same : second.active = first.active := rulesBehind_of_quiet quiet 40 "current"
  rw [visible, visible, same]

theorem visible_of_link {dir : RulesDir} {target : String} {rules : RuleSet}
    (linked : dir.node? "current" = some (.link target))
    (found : dir.node? target = some (.directory rules)) :
    dir.visible = some (target, rules.files) := by
  simp [visible, active, resolve, linked, found]

theorem visible_of_directory {dir : RulesDir} {rules : RuleSet}
    (found : dir.node? "current" = some (.directory rules)) :
    dir.visible = some ("current", rules.files) := by
  simp [visible, active, resolve, found]

theorem visible_of_none {dir : RulesDir} (absent : dir.node? "current" = none) :
    dir.visible = none := by
  rw [visible, active_of_none absent, Option.map_none]

/-- A link to nothing shows nothing. -/
theorem visible_of_dangling {dir : RulesDir} {target : String}
    (linked : dir.node? "current" = some (.link target)) (absent : dir.node? target = none) :
    dir.visible = none := by
  simp [visible, active, resolve, linked, absent]

/-- A directory as completed calls leave it: `current` is missing or leads to a
version directory. -/
structure Settled (dir : RulesDir) : Prop where
  tidy : dir.Tidy
  current : dir.node? "current" = none ∨
    ∃ target rules, dir.node? "current" = some (.link target) ∧ target ∉ ownNames ∧
      dir.node? target = some (.directory rules)

end RulesDir

namespace RuleManager

open RulesDir

section Definitions

variable (manager : RuleManager) (crypto : Crypto)
  (parse : List UInt8 → Except (List UInt8) Value) (self : DeviceIdentity) (now : Int)
  (jsonText : List UInt8) (dir : RulesDir)

/-- The complete rule files of a bundle. -/
def ruleFiles (bundle : RuleBundle) : OrderedMap String (List UInt8) :=
  .ofList (bundle.rules.zipIdx.map fun rule => (ruleFile rule.2, utf8 rule.1))

/-- The text passes every check, with the stored number read or unreadable, and is
for this device. -/
def Lands (bundle : RuleBundle) : Prop :=
  ∃ document seq, parse jsonText = .ok document ∧ (seq = maxSeq dir ∨ seq = maxSeqOf none) ∧
    manager.accept crypto now seq document = .ok bundle ∧
    bundle.header.target.hits self = true

/-- Wherever the call ends, the old rules or all of the new ones are active; after a
refusal everything is as it was. -/
def Atomic : Prop :=
  ∀ env, let ended := (manager.applyBundle crypto parse env self now jsonText).run dir
    (ended.store.visible = dir.visible ∨
      ∃ bundle, Lands manager crypto parse self now jsonText dir bundle ∧
        ended.store.visible = some (bundle.header.version, ruleFiles bundle)) ∧
    ∀ err later, ended = .returned (.rejected err) later →
      later.visible = dir.visible ∧ later.node? "max_seq" = dir.node? "max_seq"

end Definitions

section Refused

variable {env : RuleStep → Fault} {start : RulesDir}

private theorem quiet_of_unstored {dir : RulesDir} (tmpPlain : start.NoDirectory "max_seq.tmp")
    (unstored : Unstored start dir) : Quiet start dir := by
  intro name
  by_cases tmp : name = "max_seq.tmp"
  · subst tmp
    exact .inr ⟨by decide, tmpPlain, unstored.plain⟩
  · exact .inl (unstored.same name (by simp [tmp]))

private theorem quiet_of_stored {seq : Int} {dir : RulesDir}
    (tmpPlain : start.NoDirectory "max_seq.tmp") (stored : Stored start seq dir) :
    Quiet start dir := by
  intro name
  by_cases tmp : name = "max_seq.tmp"
  · subst tmp
    exact .inr ⟨by decide, tmpPlain, stored.plain⟩
  by_cases seqFile : name = "max_seq"
  · subst seqFile
    exact .inr ⟨by decide, stored.replaced, fun rules => by simp [stored.stored]⟩
  · exact .inl (stored.same name (by simp [tmp, seqFile]))

/-- A directory in the way of the temporary file refuses the number. -/
private theorem storeMaxSeq_blocked {seq : Int} {rules : RuleSet}
    (blocked : start.node? "max_seq.tmp" = some (.directory rules)) :
    Program.Triple (· = start) (storeMaxSeq env seq) (fun _ _ => False)
      (fun stop dir => (∃ err, stop = .rejected err) ∧ dir = start) (· = start) := by
  have unwritten : ∀ content, start.writeFile "max_seq.tmp" content = (false, start) := by
    intro content
    simp only [writeFile, blocked]
  have uncut : ∀ progress, start.cut (fun bytes => (start.writeFile "max_seq.tmp" bytes).2)
      (seqText seq) progress = start := by
    intro progress
    cases progress <;> simp [cut, unwritten]
  refine Program.Triple.bind (fun written dir => written = false ∧ dir = start)
    (Program.Triple.step ?_ ?_ ?_) fun written => ?_
  · rintro _ dir rfl
    simp [unwritten]
  · rintro progress _ dir rfl
    exact ⟨rfl, uncut progress⟩
  · rintro progress _ dir rfl
    exact uncut progress
  refine Program.Triple.pointwise fun dir given => ?_
  obtain ⟨failed, same⟩ := given
  subst failed same
  refine Program.Triple.bind (fun _ _ => False) (Program.Triple.ofExcept ?_ ?_)
    fun _ => fun _ impossible => impossible.elim
  · rintro ⟨⟨⟩⟩
  · rintro stop refused dir rfl
    refine ⟨⟨utf8 "max_seq write failed", ?_⟩, rfl⟩
    simpa [require, reject] using refused.symm

theorem storeMaxSeq_quiet {seq : Int} :
    Program.Triple (· = start) (storeMaxSeq env seq) (fun _ => Quiet start)
      (fun _ dir => Quiet start dir ∧ dir.node? "max_seq" = start.node? "max_seq")
      (Quiet start) := by
  by_cases tmpPlain : start.NoDirectory "max_seq.tmp"
  · refine (storeMaxSeq_spec tmpPlain).weaken (fun _ given => given) ?_ ?_ ?_
    · exact fun _ _ stored => quiet_of_stored tmpPlain stored
    · exact fun _ _ given => ⟨quiet_of_unstored tmpPlain given.2.2, given.2.2.same _ (by decide)⟩
    · exact fun _ given => quiet_of_unstored tmpPlain given.2
  · simp only [NoDirectory, not_forall, not_not] at tmpPlain
    obtain ⟨rules, blocked⟩ := tmpPlain
    refine (storeMaxSeq_blocked blocked).weaken (fun _ given => given)
      (fun _ _ impossible => impossible.elim) ?_ ?_
    · rintro _ dir ⟨_, rfl⟩
      exact ⟨Quiet.refl dir, rfl⟩
    · rintro dir rfl
      exact Quiet.refl dir

end Refused

section Unlanded

variable {manager : RuleManager} {crypto : Crypto}
  {parse : List UInt8 → Except (List UInt8) Value} {self : DeviceIdentity} {now : Int}
  {jsonText : List UInt8} {start : RulesDir}

/-- Nothing visible changed; a refusal also left the sequence file alone. -/
def Preserved (start : RulesDir) (result : RuleApply) (dir : RulesDir) : Prop :=
  Quiet start dir ∧ ∀ err, result = .rejected err → dir.node? "max_seq" = start.node? "max_seq"

theorem applyChecked_preserved {document : Value} {env : RuleStep → Fault}
    (elsewhere : ∀ bundle, manager.accept crypto now (readSeq env start) document = .ok bundle →
      bundle.header.target.hits self = false) :
    Program.Triple (· = start) (manager.applyChecked crypto env self now document)
      (fun result => Preserved start result)
      (fun _ dir => Quiet start dir ∧ dir.node? "max_seq" = start.node? "max_seq")
      (Quiet start) := by
  have unchanged : Quiet start start ∧ start.node? "max_seq" = start.node? "max_seq" :=
    ⟨Quiet.refl start, rfl⟩
  refine applyChecked_triple (fun _ => unchanged) unchanged.1 fun bundle accepted => ?_
  rw [conclude, if_neg (by simp [elsewhere bundle accepted])]
  refine Program.Triple.bind (fun _ => Quiet start) storeMaxSeq_quiet fun _ =>
    Program.Triple.pure fun _ quiet => ⟨quiet, by rintro _ ⟨⟩⟩

theorem atomic_of_not_lands
    (unlanded : ¬ ∃ bundle, Lands manager crypto parse self now jsonText start bundle) :
    Atomic manager crypto parse self now jsonText start := by
  intro env
  have kept : Program.Triple (· = start) (manager.applyBundle crypto parse env self now jsonText)
      (fun result => Preserved start result) (fun _ => Quiet start) (Quiet start) := by
    rw [applyBundle]
    cases parsed : parse jsonText with
    | error what =>
        refine Program.Triple.pure ?_
        rintro dir rfl
        exact ⟨Quiet.refl dir, fun _ _ => rfl⟩
    | ok document =>
        refine (applyChecked_preserved fun bundle accepted => ?_).handle ?_ ?_
        · by_contra hit
          exact unlanded ⟨bundle, document, _, parsed, readSeq_eq_or env start, accepted,
            by simpa using hit⟩
        · exact fun _ _ _ dir given => ⟨given.1, fun _ _ => given.2⟩
        · exact fun _ _ _ dir given => given.1
  have reached := kept start rfl
  cases ended : (manager.applyBundle crypto parse env self now jsonText).run start with
  | returned result later =>
      rw [ended] at reached
      refine ⟨.inl (visible_of_quiet reached.1), fun err dir equal => ?_⟩
      cases equal
      exact ⟨visible_of_quiet reached.1, reached.2 err rfl⟩
  | threw error later =>
      rw [ended] at reached
      exact ⟨.inl (visible_of_quiet reached), by rintro _ _ ⟨⟩⟩
  | crashed later =>
      rw [ended] at reached
      exact ⟨.inl (visible_of_quiet reached), by rintro _ _ ⟨⟩⟩

end Unlanded

section Violations

variable {manager : RuleManager} {crypto : Crypto}
  {parse : List UInt8 → Except (List UInt8) Value} {self : DeviceIdentity} {now : Int}
  {jsonText : List UInt8} {start : RulesDir} {env : RuleStep → Fault} {bundle : RuleBundle}

/-- No rule file and no sequence number can be written; the arguments decide the
steps around the version directory and the link. -/
def starved (version : String) (read rename link swap : Fault) : RuleStep → Fault
  | .readMaxSeq => read
  | .writeRule _ => .fail 0
  | .removeVersion => if version = "rules.new" then .fail 0 else .none
  | .renameVersion => rename
  | .removeLink => link
  | .swapLink => swap
  | .writeMaxSeq => .fail 0
  | _ => .none

/-- The active rules were lost. -/
def Lost (start dir : RulesDir) : Prop := dir.visible = none ∧ start.visible ≠ none

/-- Ends that contradict atomicity. -/
def Breaks (manager : RuleManager) (env : RuleStep → Fault) (bundle : RuleBundle)
    (start : RulesDir) : Prop :=
  Program.Triple (· = start) (manager.switchOver env bundle) (fun _ _ => False)
    (fun stop dir => (∃ err, stop = .rejected err) ∧ dir.visible ≠ start.visible) (Lost start)

theorem not_atomic_of_breaks {document : Value} (parsed : parse jsonText = .ok document)
    (readable : ∀ progress, env .readMaxSeq ≠ .crash progress)
    (accepted : manager.accept crypto now (readSeq env start) document = .ok bundle)
    (hit : bundle.header.target.hits self = true) (breaks : Breaks manager env bundle start) :
    ¬ Atomic manager crypto parse self now jsonText start := by
  intro atomic
  have reached := breaks start rfl
  have run : (manager.applyBundle crypto parse env self now jsonText).run start =
      ((manager.switchOver env bundle).handle refusal).run start := by
    rw [applyBundle, parsed]
    simp only [Program.run_handle, applyChecked_run readable accepted, conclude, hit, if_true]
  obtain ⟨complete, kept⟩ := atomic env
  rw [run, Program.run_handle] at complete kept
  cases ended : (manager.switchOver env bundle).run start with
  | returned result later =>
      rw [ended] at reached
      exact reached
  | crashed later =>
      rw [ended] at reached complete
      simp only [Outcome.store_crashed, reached.1] at complete
      rcases complete with same | ⟨other, _, impossible⟩
      · exact reached.2 same.symm
      · cases impossible
  | threw stop later =>
      rw [ended] at reached kept
      obtain ⟨⟨err, rfl⟩, changed⟩ := reached
      exact changed (kept err later rfl).1

private theorem writeRules_starved (writes : ∀ index, env (.writeRule index) = .fail 0)
    (rules : List (String × Nat)) (dir : RulesDir) :
    (writeRules env rules).run dir = .returned () dir := by
  induction rules with
  | nil => rfl
  | cons rule rest ih =>
      simp only [writeRules, Program.run_bind, ignoring, writes, Program.run_step_fail, cut,
        Outcome.andThen_returned, ih]

/-- An empty scratch directory is ready for its name. -/
structure Cleared (start : RulesDir) (version : String) (dir : RulesDir) : Prop where
  same : Same ["rules.new", version] start dir
  scratch : ∃ rules, dir.node? "rules.new" = some (.directory rules) ∧ rules.files = .empty
  free : version = "rules.new" ∨ dir.node? version = none

/-- The new directory has its name, without a file in it. -/
structure Moved (start : RulesDir) (version : String) (dir : RulesDir) : Prop where
  same : Same ["rules.new", version] start dir
  version : ∃ rules, dir.node? version = some (.directory rules) ∧ rules.files = .empty

private theorem scratch_starved (start : RulesDir) :
    Same ["rules.new"] start (createScratch (start.erase "rules.new")) ∧
      (createScratch (start.erase "rules.new")).node? "rules.new" =
        some (.directory ⟨.empty, none⟩) := by
  have absent : (start.erase "rules.new").node? "rules.new" = none := by
    rw [node?_erase, if_pos rfl]
  rw [createScratch, absent]
  exact ⟨(same_erase _ _).trans (same_putDirectory _ _ _), by rw [node?_putDirectory, if_pos rfl]⟩

private theorem clear_version {dir : RulesDir} (same : Same ["rules.new"] start dir)
    (scratch : dir.node? "rules.new" = some (.directory ⟨.empty, none⟩)) {version : String}
    {read rename link swap : Fault} :
    Program.Triple (· = dir)
      (ignoring (starved version read rename link swap .removeVersion) (·.erase version)
        (fun progress dir => dir.removeSome version progress))
      (fun _ => Cleared start version) (fun _ _ => False) (fun _ => False) := by
  have wide : Same ["rules.new", version] start dir := same.mono (by simp)
  by_cases isScratch : version = "rules.new"
  · subst isScratch
    refine ignoring_triple (fun impossible => nomatch impossible) ?_
      (fun _ impossible => nomatch impossible)
    rintro progress _ later rfl
    refine ⟨wide.trans ((same_removeSome _ _ _).mono (by simp)),
      ⟨RuleSet.without ⟨.empty, none⟩ progress, ?_, rfl⟩, .inl rfl⟩
    simp only [removeSome, scratch, node?_putDirectory, if_true]
  · have clean : starved version read rename link swap .removeVersion = .none := by
      simp [starved, isScratch]
    refine ignoring_triple ?_ (by simp [clean]) (by simp [clean])
    rintro _ later rfl
    refine ⟨wide.trans ((same_erase _ _).mono (by simp)), ⟨⟨.empty, none⟩, ?_, rfl⟩, .inr ?_⟩
    · rw [node?_erase, if_neg isScratch, scratch]
    · rw [node?_erase, if_pos rfl]

/-- Up to the rename the starved steps all do their work. -/
theorem land_starved {version : String} (named : bundle.header.version = version)
    {read rename link swap : Fault} {done : Unit → RulesDir → Prop}
    {raised : Stop → RulesDir → Prop} {dead : RulesDir → Prop}
    (renames : Program.Triple (Cleared start version)
      (do
        let renamed ← failing rename (landScratch bundle)
        rejectAfter "rename rules.new: " renamed) done raised dead) :
    Program.Triple (· = start) (land (starved version read rename link swap) bundle)
      done raised dead := by
  obtain ⟨same, scratch⟩ := scratch_starved start
  subst named
  refine Program.Triple.bind (fun _ dir => dir = start.erase "rules.new")
    (ignoring_triple ?_ (fun _ impossible => nomatch impossible)
      (fun _ impossible => nomatch impossible)) fun _ => ?_
  · rintro _ dir rfl
    rfl
  refine Program.Triple.bind (fun _ dir => dir = createScratch (start.erase "rules.new"))
    (ignoring_triple ?_ (fun _ impossible => nomatch impossible)
      (fun _ impossible => nomatch impossible)) fun _ => ?_
  · rintro _ dir rfl
    rfl
  refine Program.Triple.bind (fun _ dir => dir = createScratch (start.erase "rules.new"))
    ?_ fun _ => ?_
  · rintro dir rfl
    rw [writeRules_starved fun _ => rfl]
    rfl
  refine Program.Triple.bind (fun _ => Cleared start bundle.header.version)
    ((clear_version same scratch).weaken (fun _ given => given) (fun _ _ given => given)
      (fun _ _ impossible => impossible.elim) (fun _ impossible => impossible.elim)) fun _ => ?_
  exact renames

private theorem rename_self {dir : RulesDir} {name other : String} {entry : Entry}
    {plain : isLinkName name = false} (same : name = other) (found : dir.node? name = some entry) :
    dir.rename name other plain = .ok dir := by
  rw [RulesDir.rename]
  split
  next absent =>
    rw [found] at absent
    cases absent
  next => rw [if_pos same]

private theorem landScratch_cleared {dir : RulesDir}
    (cleared : Cleared start bundle.header.version dir) :
    ∃ mid, landScratch bundle dir = .ok mid ∧ Moved start bundle.header.version mid := by
  obtain ⟨rules, scratch, noFiles⟩ := cleared.scratch
  rcases cleared.free with isScratch | absent
  · refine ⟨dir.putDirectory "rules.new" { rules with origin := some bundle.header.seq }, ?_, ?_⟩
    · have renamed : dir.rename "rules.new" bundle.header.version rfl = .ok dir :=
        rename_self isScratch.symm scratch
      simp only [landScratch, renamed, Except.map]
      simp only [isScratch, scratch]
    · refine ⟨cleared.same.trans ((same_putDirectory _ _ _).mono (by simp)),
        ⟨{ rules with origin := some bundle.header.seq }, ?_, noFiles⟩⟩
      rw [isScratch, node?_putDirectory, if_pos rfl]
  · cases moved : dir.rename "rules.new" bundle.header.version rfl with
    | error errno =>
        by_cases isScratch : "rules.new" = bundle.header.version
        · rw [← isScratch, scratch] at absent
          cases absent
        · refine absurd ?_ (rename_error isScratch moved _ scratch)
          rw [absent]
          rfl
    | ok mid =>
        have apart : "rules.new" ≠ bundle.header.version := by
          intro isScratch
          rw [← isScratch, scratch] at absent
          cases absent
        obtain ⟨source, found, _, _, arrived, same⟩ := rename_ok apart moved
        rw [scratch, Option.some.injEq] at found
        subst found
        refine ⟨mid.putDirectory bundle.header.version
          { rules with origin := some bundle.header.seq }, ?_, ?_⟩
        · simp only [landScratch, moved, Except.map, arrived]
        · refine ⟨(cleared.same.trans same).trans ((same_putDirectory _ _ _).mono (by simp)),
            ⟨{ rules with origin := some bundle.header.seq }, ?_, noFiles⟩⟩
          rw [node?_putDirectory, if_pos rfl]

theorem land_starved_moves {read link swap : Fault} :
    Program.Triple (· = start) (land (starved bundle.header.version read .none link swap) bundle)
      (fun _ => Moved start bundle.header.version) (fun _ _ => False) (fun _ => False) := by
  refine land_starved rfl ?_
  refine Program.Triple.bind
    (fun result dir => result = .ok () ∧ Moved start bundle.header.version dir)
    (failing_triple ?_ ?_ (fun impossible => absurd rfl impossible)) fun result =>
      rejectAfter_triple (fun _ _ given => given.2) fun errno failed _ given => ?_
  · intro _ dir later cleared landed
    obtain ⟨mid, landed', moved⟩ := landScratch_cleared cleared
    rw [landed, Except.ok.injEq] at landed'
    exact ⟨rfl, landed' ▸ moved⟩
  · intro errno dir cleared cause
    obtain ⟨mid, landed, _⟩ := landScratch_cleared cleared
    rcases cause with faulty | failed
    · exact absurd rfl faulty
    · rw [landed] at failed
      cases failed
  · rw [given.1] at failed
    cases failed

/-- A crash between the removal of the version directory and the rename. -/
theorem breaks_of_removal {read link swap : Fault}
    (apart : bundle.header.version ≠ "rules.new") (visible : start.visible ≠ none)
    (inUse : bundle.header.version = "current" ∨
      start.node? "current" = some (.link bundle.header.version)) :
    Breaks manager (starved bundle.header.version read (.crash 0) link swap) bundle start := by
  refine Program.Triple.bind (fun _ _ => False) (land_starved rfl ?_)
    fun _ _ impossible => impossible.elim
  intro dir cleared
  refine ⟨?_, visible⟩
  have gone : dir.node? bundle.header.version = none :=
    cleared.free.resolve_left apart
  rcases inUse with isCurrent | linked
  · exact visible_of_none (isCurrent ▸ gone)
  by_cases isCurrent : bundle.header.version = "current"
  · exact visible_of_none (isCurrent ▸ gone)
  · have same : dir.node? "current" = start.node? "current" :=
      cleared.same _ (by simp [Ne.symm isCurrent])
    exact visible_of_dangling (same.trans linked) gone

private theorem storeMaxSeq_starved {version : String} {read rename link swap : Fault} {seq : Int}
    {holds : RulesDir → Prop} :
    Program.Triple holds (storeMaxSeq (starved version read rename link swap) seq)
      (fun _ _ => False) (fun stop dir => (∃ err, stop = .rejected err) ∧ holds dir)
      (fun _ => False) :=
  fun _ given => ⟨⟨utf8 "max_seq write failed", rfl⟩, given⟩

/-- The number cannot be stored, so whatever `current` shows after its swap remains
behind a refusal. -/
private theorem breaks_of_point {read link swap : Fault}
    (points : ∀ mid, Moved start bundle.header.version mid →
      Program.Triple (· = mid) (pointCurrent link .none swap bundle.header.version)
        (fun _ dir => dir.visible ≠ start.visible) (fun _ _ => False) (fun _ => False)) :
    Breaks manager (starved bundle.header.version read .none link swap) bundle start := by
  refine Program.Triple.bind (fun _ => Moved start bundle.header.version)
    (land_starved_moves.weaken (fun _ given => given) (fun _ _ given => given)
      (fun _ _ impossible => impossible.elim) (fun _ impossible => impossible.elim)) fun _ => ?_
  refine Program.Triple.bind (fun _ _ => False) ?_ fun _ _ impossible => impossible.elim
  refine Program.Triple.pointwise fun mid moved => ?_
  refine Program.Triple.bind (fun _ dir => dir.visible ≠ start.visible)
    ((points mid moved).weaken (fun _ given => given) (fun _ _ given => given)
      (fun _ _ impossible => impossible.elim) (fun _ impossible => impossible.elim))
    fun result => ?_
  refine Program.Triple.bind (fun _ dir => dir.visible ≠ start.visible)
    (rejectAfter_triple (fun _ _ given => given) fun _ _ _ given => ⟨⟨_, rfl⟩, given⟩) fun _ => ?_
  exact storeMaxSeq_starved.weaken (fun _ given => given) (fun _ _ given => given)
    (fun _ _ given => given) (fun _ impossible => impossible.elim)

theorem Settled.visible_ne {dir : RulesDir} (settled : dir.Settled) {version : String}
    (elsewhere : dir.node? "current" ≠ some (.link version))
    {files : OrderedMap String (List UInt8)} : some (version, files) ≠ dir.visible := by
  rcases settled.current with absent | ⟨target, rules, linked, _, found⟩
  · rw [visible_of_none absent]
    simp
  · rw [visible_of_link linked found]
    rintro equal
    cases equal
    exact elsewhere linked

/-- An ordinary new version. -/
theorem breaks_of_store {read : Fault} (settled : start.Settled)
    (notCurrent : bundle.header.version ≠ "current")
    (notTmp : bundle.header.version ≠ "current.tmp")
    (elsewhere : start.node? "current" ≠ some (.link bundle.header.version)) :
    Breaks manager (starved bundle.header.version read .none .none .none) bundle start := by
  refine breaks_of_point fun mid moved => ?_
  have tmpPlain : mid.NoDirectory "current.tmp" := fun rules =>
    moved.same "current.tmp" (by simp [Ne.symm notTmp]) ▸ settled.tidy.currentTmpPlain rules
  have currentPlain : mid.NoDirectory "current" := fun rules =>
    moved.same "current" (by simp [Ne.symm notCurrent]) ▸ settled.tidy.currentPlain rules
  obtain ⟨rules, found, _⟩ := moved.version
  refine (pointCurrent_spec tmpPlain currentPlain (.inr fun _ => by simp)).weaken
    (fun _ given => given) ?_ (fun _ _ impossible => impossible) ?_
  · intro result dir given
    cases result with
    | error errno => simpa using (given.2 errno rfl).1
    | ok =>
        obtain ⟨_, swapped⟩ := given.1 rfl
        have version : dir.node? bundle.header.version = some (.directory rules) :=
          (swapped.same _ (by simp [notCurrent, notTmp])).trans found
        rw [visible_of_link swapped.current version]
        exact Settled.visible_ne settled elsewhere
  · intro dir given
    simpa using given.1

theorem same_removeEntry (dir : RulesDir) (name : String) :
    Same [name] dir (dir.removeEntry name) := by
  rw [removeEntry]
  split
  · split
    · exact same_erase _ _
    · exact Same.refl _ _
  · exact same_erase _ _

theorem same_linkCurrentTmp (dir : RulesDir) (target : String) :
    Same ["current.tmp"] dir (dir.linkCurrentTmp target) := by
  rw [linkCurrentTmp]
  split
  · exact Same.refl _ _
  · exact same_put _ _ _ _

/-- The new directory is itself called `current`. -/
theorem breaks_of_current {read : Fault} (isCurrent : bundle.header.version = "current")
    (absent : start.node? "current" = none) :
    Breaks manager (starved bundle.header.version read .none .none (.fail 0)) bundle start := by
  refine breaks_of_point fun mid moved => ?_
  obtain ⟨rules, found, _⟩ := moved.version
  rw [isCurrent] at found
  rintro dir rfl
  have same := (same_removeEntry dir "current.tmp").trans
    (same_linkCurrentTmp (dir.removeEntry "current.tmp") bundle.header.version)
  show RulesDir.visible _ ≠ _
  rw [visible_of_directory ((same "current" (by decide)).trans found), visible_of_none absent]
  simp

/-- The new directory stands where the new link should. -/
theorem breaks_of_currentTmp {read : Fault} (isTmp : bundle.header.version = "current.tmp")
    (absent : start.node? "current" = none) :
    Breaks manager (starved bundle.header.version read .none (.fail 0) .none) bundle start := by
  refine breaks_of_point fun mid moved => ?_
  obtain ⟨rules, found, _⟩ := moved.version
  have free : mid.node? "current" = none := by
    rw [moved.same _ (by simp [isTmp])]
    exact absent
  rw [isTmp] at found
  refine Program.Triple.bind (fun _ dir => dir = mid)
    (ignoring_triple (fun impossible => nomatch impossible) (fun _ _ _ given => given)
      fun _ impossible => nomatch impossible) fun _ => ?_
  refine Program.Triple.bind (fun _ dir => dir = mid)
    (ignoring_triple ?_ (fun _ impossible => nomatch impossible)
      fun _ impossible => nomatch impossible) fun _ => ?_
  · rintro _ dir rfl
    rw [linkCurrentTmp, found]
  refine failing_triple ?_ ?_ (fun impossible => absurd rfl impossible)
  · rintro _ dir later rfl swapped
    obtain ⟨source, found', _, _, arrived, _⟩ := swapCurrent_ok swapped
    rw [found, Option.some.injEq] at found'
    subst found'
    rw [visible_of_directory arrived, visible_of_none absent]
    simp
  · rintro errno dir rfl cause
    rcases cause with faulty | failed
    · exact absurd rfl faulty
    · refine absurd ?_ (swapCurrent_error failed _ found)
      rw [free]
      rfl

/-- The link is made after its own target went away, and leads to itself. -/
theorem breaks_of_loop {read : Fault} (isTmp : bundle.header.version = "current.tmp")
    (settled : start.Settled) (visible : start.visible ≠ none) :
    Breaks manager (starved bundle.header.version read .none .none .none) bundle start := by
  refine breaks_of_point fun mid moved => ?_
  obtain ⟨rules, found, noFiles⟩ := moved.version
  rw [isTmp] at found
  have currentPlain : mid.NoDirectory "current" := fun rules =>
    moved.same "current" (by simp [isTmp]) ▸ settled.tidy.currentPlain rules
  refine Program.Triple.bind
    (fun _ dir => Same ["current.tmp"] mid dir ∧ dir.node? "current.tmp" = none)
    (ignoring_triple ?_ (fun _ impossible => nomatch impossible)
      fun _ impossible => nomatch impossible) fun _ => ?_
  · rintro _ dir rfl
    refine ⟨same_removeEntry _ _, ?_⟩
    simp only [removeEntry, found, noFiles, OrderedMap.entries_empty, if_true, node?_erase]
  refine Program.Triple.bind
    (fun _ dir => Same ["current.tmp"] mid dir ∧
      dir.node? "current.tmp" = some (.link "current.tmp"))
    (ignoring_triple ?_ (fun _ impossible => nomatch impossible)
      fun _ impossible => nomatch impossible) fun _ => ?_
  · rintro _ dir ⟨same, gone⟩
    refine ⟨same.trans (same_linkCurrentTmp _ _), ?_⟩
    simp only [linkCurrentTmp, gone, node?_put, if_true, isTmp]
  refine failing_triple ?_ ?_ (fun impossible => absurd rfl impossible)
  · rintro _ dir later ⟨_, linked⟩ swapped
    obtain ⟨source, found', _, gone, arrived, _⟩ := swapCurrent_ok swapped
    rw [linked, Option.some.injEq] at found'
    subst found'
    rw [visible_of_dangling arrived gone]
    exact visible.symm
  · rintro errno dir ⟨same, linked⟩ cause
    rcases cause with faulty | failed
    · exact absurd rfl faulty
    · refine absurd (mayReplace_ok ?_ (by simp)) (swapCurrent_error failed _ linked)
      intro rules
      rw [same "current" (by decide)]
      exact currentPlain rules

theorem exists_breaks (manager : RuleManager) (settled : start.Settled) (bundle : RuleBundle)
    (read : Fault) :
    ∃ rename link swap,
      Breaks manager (starved bundle.header.version read rename link swap) bundle start := by
  have currentShown : start.node? "current" ≠ none → start.visible ≠ none := by
    intro present
    rcases settled.current with absent | ⟨target, rules, linked, _, found⟩
    · exact absurd absent present
    · rw [visible_of_link linked found]
      simp
  by_cases linked : start.node? "current" = some (.link bundle.header.version)
  · rcases settled.current with absent | ⟨target, rules, linked', ordinary, _⟩
    · rw [absent] at linked
      cases linked
    · have same : target = bundle.header.version := by simpa [linked] using linked'.symm
      subst same
      exact ⟨_, .none, .none, breaks_of_removal (own_apart ordinary).2.2.2.2
        (currentShown (by simp [linked])) (.inr linked)⟩
  by_cases isCurrent : bundle.header.version = "current"
  · by_cases absent : start.node? "current" = none
    · exact ⟨_, _, _, breaks_of_current isCurrent absent⟩
    · exact ⟨_, .none, .none, breaks_of_removal (by simp [isCurrent]) (currentShown absent)
        (.inl isCurrent)⟩
  by_cases isTmp : bundle.header.version = "current.tmp"
  · by_cases absent : start.node? "current" = none
    · exact ⟨_, _, _, breaks_of_currentTmp isTmp absent⟩
    · exact ⟨_, _, _, breaks_of_loop isTmp settled (currentShown absent)⟩
  exact ⟨_, _, _, breaks_of_store settled isCurrent isTmp linked⟩

theorem not_atomic_of_lands (settled : start.Settled)
    (lands : Lands manager crypto parse self now jsonText start bundle) :
    ¬ Atomic manager crypto parse self now jsonText start := by
  obtain ⟨document, seq, parsed, stored, accepted, hit⟩ := lands
  obtain ⟨read, readable, reads⟩ : ∃ read : Fault, (∀ progress, read ≠ .crash progress) ∧
      ∀ rename link swap,
        readSeq (starved bundle.header.version read rename link swap) start = seq := by
    rcases stored with rfl | rfl
    · exact ⟨.none, (fun _ impossible => nomatch impossible), fun _ _ _ => rfl⟩
    · exact ⟨.fail 0, (fun _ impossible => nomatch impossible), fun _ _ _ => rfl⟩
  obtain ⟨rename, link, swap, breaks⟩ := exists_breaks manager settled bundle read
  exact not_atomic_of_breaks parsed readable (by rw [reads]; exact accepted) hit breaks

end Violations

private def refusedWithRules : Outcome RulesDir Json.Error RuleApply → Bool
  | .returned (.rejected _) later => later.visible.isSome
  | _ => false

end RuleManager

end Idsm.Managerd
