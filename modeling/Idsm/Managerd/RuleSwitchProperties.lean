import Idsm.Managerd.RuleAdmissionProperties

/-! What each phase of the switch-over may do to the directory, however its steps
end. Every phase names the entries it may touch and leaves the others alone. -/

set_option autoImplicit false

namespace Idsm.Managerd

open Idsm.Foundation
open Idsm.Json (Value)

namespace RulesDir

/-- The directories differ at most at the listed names. -/
def Same (names : List String) (first second : RulesDir) : Prop :=
  ∀ name, name ∉ names → second.node? name = first.node? name

theorem Same.refl (names : List String) (dir : RulesDir) : Same names dir dir := fun _ _ => rfl

theorem Same.trans {names : List String} {first second third : RulesDir}
    (before : Same names first second) (after : Same names second third) :
    Same names first third := fun name outside => (after name outside).trans (before name outside)

theorem Same.mono {names wider : List String} {first second : RulesDir}
    (same : Same names first second) (within : names ⊆ wider) : Same wider first second :=
  fun name outside => same name fun inside => outside (within inside)

/-- An entry that is not a directory; a file or a link may be replaced. -/
def NoDirectory (dir : RulesDir) (name : String) : Prop :=
  ∀ rules, dir.node? name ≠ some (.directory rules)

/-- Removal took all, some or nothing of an entry. -/
def Shrunk (before after : Option Entry) : Prop :=
  after = before ∨ after = none ∨
    ∃ rules rules', before = some (.directory rules) ∧ after = some (.directory rules') ∧
      rules'.origin = rules.origin

theorem same_erase (dir : RulesDir) (name : String) : Same [name] dir (dir.erase name) := by
  intro other outside
  rw [node?_erase, if_neg (fun equal => outside (by simp [equal]))]

theorem same_put (dir : RulesDir) (name : String) (entry : Entry)
    (allowed : ∀ target, entry = .link target → isLinkName name = true) :
    Same [name] dir (dir.put name entry allowed) := by
  intro other outside
  rw [node?_put, if_neg (fun equal => outside (by simp [equal]))]

theorem same_putFile (dir : RulesDir) (name : String) (content : List UInt8) :
    Same [name] dir (dir.putFile name content) := same_put _ _ _ _

theorem same_putDirectory (dir : RulesDir) (name : String) (rules : RuleSet) :
    Same [name] dir (dir.putDirectory name rules) := same_put _ _ _ _

theorem same_removeSome (dir : RulesDir) (name : String) (progress : Nat) :
    Same [name] dir (dir.removeSome name progress) := by
  rw [removeSome]
  split
  · exact same_putDirectory _ _ _
  · exact .refl _ _

theorem same_writeInto (dir : RulesDir) (name file : String) (content : List UInt8) :
    Same [name] dir (dir.writeInto name file content) := by
  rw [writeInto]
  split
  · exact same_putDirectory _ _ _
  · exact .refl _ _

theorem same_writeFile (dir : RulesDir) (name : String) (content : List UInt8) :
    Same [name] dir (dir.writeFile name content).2 := by
  rw [writeFile]
  split
  · exact .refl _ _
  · exact .refl _ _
  · exact same_putFile _ _ _

theorem shrunk_removeSome (dir : RulesDir) (name : String) (progress : Nat) :
    Shrunk (dir.node? name) ((dir.removeSome name progress).node? name) := by
  rw [removeSome]
  split
  next rules found =>
    refine .inr (.inr ⟨rules, rules.without progress, found, ?_, rfl⟩)
    rw [node?_putDirectory, if_pos rfl]
  · exact .inl rfl

theorem Shrunk.trans {first second third : Option Entry} (before : Shrunk first second)
    (after : Shrunk second third) : Shrunk first third := by
  rcases after with rfl | gone | ⟨rules, rules', found, left, origin⟩
  · exact before
  · exact .inr (.inl gone)
  · rcases before with rfl | gone | ⟨earlier, earlier', found', left', origin'⟩
    · exact .inr (.inr ⟨rules, rules', found, left, origin⟩)
    · rw [gone] at found
      cases found
    · rw [left'] at found
      cases found
      exact .inr (.inr ⟨earlier, rules', found', left, origin.trans origin'⟩)

theorem mayReplace_ok {source : Entry} {existing : Option Entry}
    (free : ∀ rules, existing ≠ some (.directory rules)) (plain : ∀ rules, source ≠ .directory rules) :
    mayReplace source existing = .ok () := by
  cases existing with
  | none => rfl
  | some entry =>
      cases entry with
      | directory rules => exact absurd rfl (free rules)
      | file content =>
          cases source with
          | directory rules => exact absurd rfl (plain rules)
          | _ => rfl
      | link target =>
          cases source with
          | directory rules => exact absurd rfl (plain rules)
          | _ => rfl

/-- A rename either fails or moves the entry, touching nothing else. -/
theorem rename_ok {dir later : RulesDir} {oldName newName : String}
    {plain : isLinkName oldName = false} (different : oldName ≠ newName)
    (renamed : dir.rename oldName newName plain = .ok later) :
    ∃ source, dir.node? oldName = some source ∧
      mayReplace source (dir.node? newName) = .ok () ∧
      later.node? oldName = none ∧ later.node? newName = some source ∧
      Same [oldName, newName] dir later := by
  rw [rename] at renamed
  split at renamed
  next => cases renamed
  next source found =>
    rw [if_neg different] at renamed
    cases allowed : mayReplace source (dir.node? newName) with
    | error errno =>
        rw [allowed] at renamed
        cases renamed
    | ok =>
        rw [allowed] at renamed
        cases renamed
        refine ⟨source, found, allowed, ?_, ?_, ?_⟩
        · rw [node?_put, if_neg (Ne.symm different), node?_erase, if_pos rfl]
        · rw [node?_put, if_pos rfl]
        · intro name outside
          simp only [List.mem_cons, List.not_mem_nil, or_false, not_or] at outside
          rw [node?_put, if_neg (Ne.symm outside.2), node?_erase, if_neg (Ne.symm outside.1)]

theorem rename_error {dir : RulesDir} {oldName newName : String}
    {plain : isLinkName oldName = false} {errno : Errno} (different : oldName ≠ newName)
    (failed : dir.rename oldName newName plain = .error errno) :
    ∀ source, dir.node? oldName = some source → mayReplace source (dir.node? newName) ≠ .ok () := by
  intro source found allowed
  rw [rename] at failed
  split at failed
  next absent =>
    rw [found] at absent
    cases absent
  next other found' =>
    rw [found] at found'
    cases found'
    rw [if_neg different, allowed] at failed
    cases failed

theorem swapCurrent_ok {dir later : RulesDir} (swapped : dir.swapCurrent = .ok later) :
    ∃ source, dir.node? "current.tmp" = some source ∧
      mayReplace source (dir.node? "current") = .ok () ∧
      later.node? "current.tmp" = none ∧ later.node? "current" = some source ∧
      Same ["current.tmp", "current"] dir later := by
  rw [swapCurrent] at swapped
  split at swapped
  next => cases swapped
  next source found =>
    cases allowed : mayReplace source (dir.node? "current") with
    | error errno =>
        rw [allowed] at swapped
        cases swapped
    | ok =>
        rw [allowed] at swapped
        cases swapped
        refine ⟨source, found, allowed, ?_, ?_, ?_⟩
        · rw [node?_put, if_neg (by decide), node?_erase, if_pos rfl]
        · rw [node?_put, if_pos rfl]
        · intro name outside
          simp only [List.mem_cons, List.not_mem_nil, or_false, not_or] at outside
          rw [node?_put, if_neg (Ne.symm outside.2), node?_erase, if_neg (Ne.symm outside.1)]

theorem swapCurrent_error {dir : RulesDir} {errno : Errno}
    (failed : dir.swapCurrent = .error errno) :
    ∀ source, dir.node? "current.tmp" = some source →
      mayReplace source (dir.node? "current") ≠ .ok () := by
  intro source found allowed
  rw [swapCurrent, found] at failed
  simp only [allowed] at failed
  cases failed

end RulesDir

namespace RuleManager

open RulesDir

section Phases

variable {done : Except Errno Unit → RulesDir → Prop} {raised : Stop → RulesDir → Prop}
  {before dead : RulesDir → Prop} {fault : Fault}

theorem failing_triple {call : RulesDir → Except Errno RulesDir}
    (succeeds : fault = .none → ∀ dir later, before dir → call dir = .ok later →
      done (.ok ()) later)
    (errors : ∀ errno dir, before dir → (fault ≠ .none ∨ call dir = .error errno) →
      done (.error errno) dir)
    (crashes : fault ≠ .none → ∀ dir, before dir → dead dir) :
    Program.Triple before (failing fault call) done raised dead := by
  refine Program.Triple.step ?_ ?_ ?_
  · intro clean dir given
    cases called : call dir with
    | ok later => exact succeeds clean dir later given called
    | error errno => exact errors errno dir given (.inr called)
  · exact fun _ failed dir given => errors _ dir given (.inl (by simp [failed]))
  · exact fun _ crashed dir given => crashes (by simp [crashed]) dir given

theorem ignoring_triple {done : RulesDir → Prop} {call : RulesDir → RulesDir}
    {partially : Nat → RulesDir → RulesDir}
    (performs : fault = .none → ∀ dir, before dir → done (call dir))
    (fails : ∀ progress, fault = .fail progress → ∀ dir, before dir → done (partially progress dir))
    (crashes : ∀ progress, fault = .crash progress → ∀ dir, before dir →
      dead (partially progress dir)) :
    Program.Triple before (ignoring fault call partially) (fun _ => done) raised dead :=
  Program.Triple.step performs fails crashes

/-- A dropped error leaves what the call itself would have kept true. -/
theorem ignoring_preserves {call : RulesDir → RulesDir} {partially : Nat → RulesDir → RulesDir}
    (performs : ∀ dir, before dir → before (call dir))
    (cutOff : ∀ progress dir, before dir → before (partially progress dir)) :
    Program.Triple before (ignoring fault call partially) (fun _ => before) raised before :=
  ignoring_triple (fun _ => performs) (fun progress _ => cutOff progress)
    (fun progress _ => cutOff progress)

theorem rejectAfter_triple {context : String} {result : Except Errno Unit}
    {finished : RulesDir → Prop} (passes : result = .ok () → ∀ dir, before dir → finished dir)
    (refuses : ∀ errno, result = .error errno → ∀ dir, before dir →
      raised (.rejected (utf8 (context ++ errno.message))) dir) :
    Program.Triple before (rejectAfter context result) (fun _ => finished) raised dead := by
  cases result with
  | ok => exact Program.Triple.pure (passes rfl)
  | error errno => exact fun dir given => refuses errno rfl dir given

theorem writeRules_preserves {env : RuleStep → Fault} {holds : RulesDir → Prop}
    (kept : ∀ dir file content, holds dir → holds (dir.writeInto "rules.new" file content))
    (rules : List (String × Nat)) :
    Program.Triple holds (writeRules env rules) (fun _ => holds) raised holds := by
  induction rules with
  | nil => exact Program.Triple.pure fun _ given => given
  | cons rule rest ih =>
      obtain ⟨text, index⟩ := rule
      refine Program.Triple.bind (fun _ => holds) (ignoring_preserves ?_ ?_) fun _ => ih
      · exact fun dir given => kept dir _ _ given
      · intro progress dir given
        cases progress with
        | zero => exact given
        | succ progress => exact kept dir _ _ given

end Phases

section Landing

variable {env : RuleStep → Fault} {bundle : RuleBundle} {start : RulesDir}

/-- The directory before the new rules have their name: only the scratch directory
and the old version directory may have changed. -/
structure Unlanded (start : RulesDir) (version : String) (dir : RulesDir) : Prop where
  same : Same ["rules.new", version] start dir
  version : Shrunk (start.node? version) (dir.node? version)
  scratch : ∀ content, dir.node? "rules.new" ≠ some (.file content)

structure Landed (start : RulesDir) (bundle : RuleBundle) (dir : RulesDir) : Prop where
  same : Same ["rules.new", bundle.header.version] start dir
  scratch : dir.node? "rules.new" = none
  version : ∃ rules, dir.node? bundle.header.version = some (.directory rules) ∧
    rules.origin = some bundle.header.seq

private theorem Unlanded.change {version : String} {dir later : RulesDir}
    (unlanded : Unlanded start version dir) (apart : version ≠ "rules.new")
    (same : Same ["rules.new"] dir later)
    (scratch : ∀ content, later.node? "rules.new" ≠ some (.file content)) :
    Unlanded start version later where
  same := unlanded.same.trans (same.mono (by simp))
  version := by
    rw [same version (by simpa using apart)]
    exact unlanded.version
  scratch := scratch

private theorem writeInto_unlanded {version : String} {dir : RulesDir} {file : String}
    {content : List UInt8} (apart : version ≠ "rules.new") (unlanded : Unlanded start version dir) :
    Unlanded start version (dir.writeInto "rules.new" file content) := by
  refine unlanded.change apart (same_writeInto _ _ _ _) ?_
  intro found
  rw [writeInto]
  split
  · simp [node?_putDirectory]
  · exact unlanded.scratch found

private theorem landScratch_ok {dir later : RulesDir} (apart : bundle.header.version ≠ "rules.new")
    (unlanded : Unlanded start bundle.header.version dir)
    (landed : landScratch bundle dir = .ok later) : Landed start bundle later := by
  rw [landScratch] at landed
  cases renamed : dir.rename "rules.new" bundle.header.version rfl with
  | error errno =>
      rw [renamed] at landed
      cases landed
  | ok moved =>
      rw [renamed] at landed
      obtain ⟨source, found, _, gone, arrived, same⟩ := rename_ok apart.symm renamed
      cases source with
      | file content => exact absurd found (unlanded.scratch content)
      | link target => exact absurd (isLinkName_of_link found) (by decide)
      | directory rules =>
          simp only [Except.map, arrived, Except.ok.injEq] at landed
          subst landed
          refine ⟨?_, ?_, ⟨_, by rw [node?_putDirectory, if_pos rfl], rfl⟩⟩
          · refine (unlanded.same.trans same).trans ?_
            exact (same_putDirectory _ _ _).mono (by simp)
          · rw [node?_putDirectory, if_neg apart, gone]

private theorem removeSome_scratch_unlanded {version : String} {dir : RulesDir} (progress : Nat)
    (apart : version ≠ "rules.new") (unlanded : Unlanded start version dir) :
    Unlanded start version (dir.removeSome "rules.new" progress) := by
  refine unlanded.change apart (same_removeSome _ _ _) ?_
  intro content
  rw [removeSome]
  split
  · simp [node?_putDirectory]
  · exact unlanded.scratch content

private theorem remove_version_unlanded {version : String} {dir later : RulesDir}
    (apart : version ≠ "rules.new") (unlanded : Unlanded start version dir)
    (same : Same [version] dir later) (shrunk : Shrunk (dir.node? version) (later.node? version)) :
    Unlanded start version later where
  same := unlanded.same.trans (same.mono (by simp))
  version := unlanded.version.trans shrunk
  scratch := by
    intro content
    rw [same "rules.new" (by simpa using apart.symm)]
    exact unlanded.scratch content

theorem land_spec (apart : bundle.header.version ≠ "rules.new")
    (scratch : ∀ content, start.node? "rules.new" ≠ some (.file content)) :
    Program.Triple (· = start) (land env bundle)
      (fun _ dir => env .renameVersion = .none ∧ Landed start bundle dir)
      (fun stop dir => (∃ err, stop = .rejected err) ∧ Unlanded start bundle.header.version dir)
      (Unlanded start bundle.header.version) := by
  have begun : Unlanded start bundle.header.version start :=
    ⟨Same.refl _ _, .inl rfl, scratch⟩
  refine Program.Triple.bind (fun _ => Unlanded start bundle.header.version)
    (ignoring_triple ?_ ?_ ?_) fun _ => ?_
  · rintro _ dir rfl
    refine begun.change apart (same_erase _ _) ?_
    simp [node?_erase]
  · rintro progress _ dir rfl
    exact removeSome_scratch_unlanded progress apart begun
  · rintro progress _ dir rfl
    exact removeSome_scratch_unlanded progress apart begun
  refine Program.Triple.bind (fun _ => Unlanded start bundle.header.version)
    (ignoring_preserves ?_ fun _ _ given => given) fun _ => ?_
  · intro dir unlanded
    rw [createScratch]
    split
    · refine unlanded.change apart (same_putDirectory _ _ _) ?_
      simp [node?_putDirectory]
    · exact unlanded
  refine Program.Triple.bind (fun _ => Unlanded start bundle.header.version)
    (writeRules_preserves (fun dir file content => writeInto_unlanded apart) _) fun _ => ?_
  refine Program.Triple.bind (fun _ => Unlanded start bundle.header.version)
    (ignoring_preserves ?_ ?_) fun _ => ?_
  · intro dir unlanded
    refine remove_version_unlanded apart unlanded (same_erase _ _) (.inr (.inl ?_))
    rw [node?_erase, if_pos rfl]
  · intro progress dir unlanded
    exact remove_version_unlanded apart unlanded (same_removeSome _ _ _) (shrunk_removeSome _ _ _)
  refine Program.Triple.bind
    (fun result dir => (result = .ok () → env .renameVersion = .none ∧ Landed start bundle dir) ∧
      (∀ errno, result = .error errno → Unlanded start bundle.header.version dir))
    (failing_triple ?_ ?_ fun _ _ given => given) fun result => rejectAfter_triple ?_ ?_
  · intro clean dir later unlanded landed
    exact ⟨fun _ => ⟨clean, landScratch_ok apart unlanded landed⟩,
      fun _ impossible => nomatch impossible⟩
  · intro errno dir unlanded _
    exact ⟨(fun impossible => nomatch impossible), fun _ _ => unlanded⟩
  · exact fun passed dir given => given.1 passed
  · exact fun errno failed dir given => ⟨⟨_, rfl⟩, given.2 errno failed⟩

end Landing

section Pointing

variable {removal creation swap : Fault} {name : String} {start : RulesDir}
  {raised : Stop → RulesDir → Prop}

/-- Nothing but the temporary link may have changed; it is gone, as it was, or new. -/
structure Unswapped (start : RulesDir) (name : String) (dir : RulesDir) : Prop where
  same : Same ["current.tmp"] start dir
  link : dir.node? "current.tmp" = none ∨ dir.node? "current.tmp" = start.node? "current.tmp" ∨
    dir.node? "current.tmp" = some (.link name)

structure Swapped (start : RulesDir) (name : String) (dir : RulesDir) : Prop where
  same : Same ["current.tmp", "current"] start dir
  link : dir.node? "current.tmp" = none
  current : dir.node? "current" = some (.link name)

theorem removeEntry_of_noDirectory {dir : RulesDir} {name : String}
    (plain : dir.NoDirectory name) : dir.removeEntry name = dir.erase name := by
  rw [removeEntry]
  split
  next rules found => exact absurd found (plain rules)
  next => rfl

/-- With the temporary link out of the way, `current` ends as the new link, or as it
was when a step failed. -/
theorem pointCurrent_spec (tmpPlain : start.NoDirectory "current.tmp")
    (currentPlain : start.NoDirectory "current")
    (fresh : start.node? "current.tmp" = none ∨ ∀ progress, removal ≠ .fail progress) :
    Program.Triple (· = start) (pointCurrent removal creation swap name)
      (fun result dir => (result = .ok () → swap = .none ∧ Swapped start name dir) ∧
        ∀ errno, result = .error errno →
          (creation ≠ .none ∨ swap ≠ .none) ∧ Unswapped start name dir)
      raised
      (fun dir => (removal ≠ .none ∨ creation ≠ .none ∨ swap ≠ .none) ∧
        Unswapped start name dir) := by
  have begun : Unswapped start name start := ⟨Same.refl _ _, .inr (.inl rfl)⟩
  refine Program.Triple.bind
    (fun _ dir => Unswapped start name dir ∧ dir.node? "current.tmp" = none)
    (ignoring_triple ?_ ?_ ?_) fun _ => ?_
  · rintro _ dir rfl
    rw [removeEntry_of_noDirectory tmpPlain]
    have gone : (dir.erase "current.tmp").node? "current.tmp" = none := by
      rw [node?_erase, if_pos rfl]
    exact ⟨⟨same_erase _ _, .inl gone⟩, gone⟩
  · rintro progress failed dir rfl
    rcases fresh with absent | works
    · exact ⟨begun, absent⟩
    · exact absurd failed (works progress)
  · rintro progress crashed dir rfl
    exact ⟨.inl (by simp [crashed]), begun⟩
  refine Program.Triple.bind
    (fun _ dir => Unswapped start name dir ∧
      (dir.node? "current.tmp" = none ∧ creation ≠ .none ∨
        dir.node? "current.tmp" = some (.link name)))
    (ignoring_triple ?_ ?_ ?_) fun _ => ?_
  · rintro _ dir ⟨unswapped, absent⟩
    have linked : (dir.linkCurrentTmp name).node? "current.tmp" = some (.link name) := by
      rw [linkCurrentTmp]
      split
      next found => rw [absent] at found; cases found
      next => rw [node?_put, if_pos rfl]
    refine ⟨⟨unswapped.same.trans ?_, .inr (.inr linked)⟩, .inr linked⟩
    rw [linkCurrentTmp]
    split
    · exact Same.refl _ _
    · exact same_put _ _ _ _
  · rintro progress failed dir ⟨unswapped, absent⟩
    exact ⟨unswapped, .inl ⟨absent, by simp [failed]⟩⟩
  · rintro progress crashed dir ⟨unswapped, _⟩
    exact ⟨.inr (.inl (by simp [crashed])), unswapped⟩
  refine failing_triple ?_ ?_ ?_
  · rintro clean dir later ⟨unswapped, link⟩ swapped
    refine ⟨fun _ => ⟨clean, ?_⟩, fun _ impossible => nomatch impossible⟩
    obtain ⟨source, found, _, gone, arrived, same⟩ := swapCurrent_ok swapped
    rcases link with ⟨absent, _⟩ | linked
    · rw [absent] at found
      cases found
    · rw [linked] at found
      cases found
      exact ⟨(unswapped.same.mono (by simp)).trans same, gone, arrived⟩
  · rintro errno dir ⟨unswapped, link⟩ cause
    refine ⟨(fun impossible => nomatch impossible), fun _ _ => ⟨?_, unswapped⟩⟩
    rcases cause with faulty | failed
    · exact .inr faulty
    rcases link with ⟨_, faulty⟩ | linked
    · exact .inl faulty
    · refine absurd (mayReplace_ok ?_ (by simp)) (swapCurrent_error failed _ linked)
      intro rules
      rw [unswapped.same "current" (by decide)]
      exact currentPlain rules
  · rintro faulty dir ⟨unswapped, _⟩
    exact ⟨.inr (.inr faulty), unswapped⟩

end Pointing

section Storing

variable {env : RuleStep → Fault} {seq : Int} {start : RulesDir}

/-- The sequence file is as it was; a new one may lie beside it. -/
structure Unstored (start : RulesDir) (dir : RulesDir) : Prop where
  same : Same ["max_seq.tmp"] start dir
  plain : dir.NoDirectory "max_seq.tmp"

structure Stored (start : RulesDir) (seq : Int) (dir : RulesDir) : Prop where
  same : Same ["max_seq.tmp", "max_seq"] start dir
  plain : dir.NoDirectory "max_seq.tmp"
  stored : dir.node? "max_seq" = some (.file (seqText seq))
  replaced : start.NoDirectory "max_seq"

private theorem writeFile_unstored {dir : RulesDir} (unstored : Unstored start dir)
    (content : List UInt8) :
    Unstored start (dir.writeFile "max_seq.tmp" content).2 ∧
      (dir.writeFile "max_seq.tmp" content).2.node? "max_seq.tmp" = some (.file content) := by
  have plain := unstored.plain
  rw [writeFile]
  split
  next rules found => exact absurd found (plain rules)
  next target found => exact absurd (isLinkName_of_link found) (by decide)
  next =>
    have written : (dir.putFile "max_seq.tmp" content).node? "max_seq.tmp" =
        some (.file content) := by rw [node?_putFile, if_pos rfl]
    refine ⟨⟨unstored.same.trans (same_putFile _ _ _), ?_⟩, written⟩
    intro rules
    simp [written]

/-- Storing fails without a trace in the sequence file, or it succeeds. -/
theorem storeMaxSeq_spec (tmpPlain : start.NoDirectory "max_seq.tmp") :
    Program.Triple (· = start) (storeMaxSeq env seq)
      (fun _ => Stored start seq)
      (fun stop dir => (∃ err, stop = .rejected err) ∧
        (env .writeMaxSeq ≠ .none ∨ env .renameMaxSeq ≠ .none ∨ ¬ start.NoDirectory "max_seq") ∧
        Unstored start dir)
      (fun dir => (env .writeMaxSeq ≠ .none ∨ env .renameMaxSeq ≠ .none) ∧ Unstored start dir) := by
  have begun : Unstored start start := ⟨Same.refl _ _, tmpPlain⟩
  have cutOff : ∀ progress, Unstored start
      (start.cut (fun bytes => (start.writeFile "max_seq.tmp" bytes).2) (seqText seq) progress) := by
    intro progress
    cases progress with
    | zero => exact begun
    | succ progress => exact (writeFile_unstored begun _).1
  refine Program.Triple.bind
    (fun written dir => Unstored start dir ∧
      (written = true → dir.node? "max_seq.tmp" = some (.file (seqText seq))) ∧
      (written = false → env .writeMaxSeq ≠ .none))
    (Program.Triple.step ?_ ?_ ?_) fun written => ?_
  · rintro _ dir rfl
    obtain ⟨unstored, found⟩ := writeFile_unstored begun (seqText seq)
    refine ⟨unstored, fun _ => found, fun failed => ?_⟩
    rw [writeFile] at failed
    split at failed
    next rules found => exact absurd found (tmpPlain rules)
    next target found => exact absurd (isLinkName_of_link found) (by decide)
    next => cases failed
  · rintro progress failed dir rfl
    exact ⟨cutOff progress, (by rintro ⟨⟩), fun _ => by simp [failed]⟩
  · rintro progress crashed dir rfl
    exact ⟨.inl (by simp [crashed]), cutOff progress⟩
  refine Program.Triple.bind
    (fun _ dir => Unstored start dir ∧ dir.node? "max_seq.tmp" = some (.file (seqText seq)))
    (Program.Triple.ofExcept ?_ ?_) fun _ => ?_
  · rintro ⟨success⟩ _ dir ⟨unstored, found, _⟩
    exact ⟨unstored, found success⟩
  · rintro stop refused dir ⟨unstored, _, failed⟩
    cases written with
    | true => simp [require] at refused
    | false =>
        refine ⟨⟨utf8 "max_seq write failed", ?_⟩, .inl (failed rfl), unstored⟩
        simpa [require, reject] using refused.symm
  refine Program.Triple.bind
    (fun result dir => (result = .ok () → Stored start seq dir) ∧
      ∀ errno, result = .error errno →
        (env .renameMaxSeq ≠ .none ∨ ¬ start.NoDirectory "max_seq") ∧ Unstored start dir)
    (failing_triple ?_ ?_ ?_) fun result => rejectAfter_triple ?_ ?_
  · rintro _ dir later ⟨unstored, found⟩ renamed
    refine ⟨fun _ => ?_, by rintro _ ⟨⟩⟩
    obtain ⟨source, found', allowed, gone, arrived, same⟩ := rename_ok (by decide) renamed
    rw [found] at found'
    cases found'
    refine ⟨(unstored.same.mono (by simp)).trans same, ?_, arrived, ?_⟩
    · intro rules
      simp [gone]
    · intro rules existing
      rw [unstored.same "max_seq" (by decide), existing] at allowed
      cases allowed
  · rintro errno dir ⟨unstored, found⟩ cause
    refine ⟨(by rintro ⟨⟩), fun _ _ => ⟨?_, unstored⟩⟩
    rcases cause with faulty | renamed
    · exact .inl faulty
    refine .inr fun plain => rename_error (by decide) renamed _ found (mayReplace_ok ?_ (by simp))
    intro rules
    rw [unstored.same "max_seq" (by decide)]
    exact plain rules
  · rintro faulty dir ⟨unstored, _⟩
    exact ⟨.inr faulty, unstored⟩
  · exact fun passed dir given => given.1 passed
  · exact fun errno failed dir given =>
      ⟨⟨_, rfl⟩, .inr (given.2 errno failed).1, (given.2 errno failed).2⟩

end Storing

section Application

variable {manager : RuleManager} {crypto : Crypto} {self : DeviceIdentity} {now : Int}
  {document : Value} {env : RuleStep → Fault} {start : RulesDir}

/-- The stored number as the application reads it. -/
def readSeq (env : RuleStep → Fault) (dir : RulesDir) : Int :=
  seqRead (env .readMaxSeq) (maxSeq dir)

theorem readSeq_eq_or (env : RuleStep → Fault) (dir : RulesDir) :
    readSeq env dir = maxSeq dir ∨ readSeq env dir = maxSeqOf none :=
  seqRead_eq_or _ _

/-- Up to acceptance nothing changes; what follows is the accepted bundle's conclusion. -/
theorem applyChecked_triple {done : RuleApply → RulesDir → Prop} {raised : Stop → RulesDir → Prop}
    {dead : RulesDir → Prop} (refused : ∀ stop, raised stop start) (died : dead start)
    (concludes : ∀ bundle,
      manager.accept crypto now (readSeq env start) document = .ok bundle →
      Program.Triple (· = start) (manager.conclude env self bundle) done raised dead) :
    Program.Triple (· = start) (manager.applyChecked crypto env self now document)
      done raised dead :=
  admitThen_triple refused died concludes

theorem applyChecked_run (readable : ∀ progress, env .readMaxSeq ≠ .crash progress)
    {bundle : RuleBundle}
    (accepted : manager.accept crypto now (readSeq env start) document = .ok bundle) :
    (manager.applyChecked crypto env self now document).run start =
      (manager.conclude env self bundle).run start :=
  admitThen_run readable accepted

end Application

end RuleManager

end Idsm.Managerd
