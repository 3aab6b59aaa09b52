import Idsm.Managerd.ConfigLandingProperties

/-! Atomicity of a configuration update. A text that lands nothing leaves the
configuration alone when it is refused; a text that lands can always be refused
with something of it left behind. -/

set_option autoImplicit false

namespace Idsm.Managerd.ConfigManager

open Idsm.Foundation
open Idsm.Json (Value)

section Definitions

variable (manager : ConfigManager) (library : ConfigLibrary) (crypto : Crypto)
  (self : DeviceIdentity) (now : Int) (jsonText : List UInt8) (dir : ConfigDir)

/-- The text passes every check, with the stored number read or unreadable, and is
for this device. -/
def Lands (bundle : ConfigBundle) : Prop :=
  ∃ document seq, library.parse jsonText = .ok document ∧
    (seq = maxSeq dir ∨ seq = maxSeqOf none) ∧
    manager.accept crypto now seq document = .ok bundle ∧ bundle.header.target.hits self = true

/-- Whatever step fails, a refusal leaves every file under `current`, and with them
the recorded versions, and the stored number as they were. -/
def Atomic : Prop :=
  ∀ env err later,
    (applyBundle manager library env crypto self now jsonText).run dir =
      .returned (.rejected err) later →
    later.configuration = dir.configuration

end Definitions

section Refused

variable {manager : ConfigManager} {library : ConfigLibrary} {crypto : Crypto}
  {self : DeviceIdentity} {now : Int} {jsonText : List UInt8} {start : ConfigDir}

theorem atomic_of_not_lands
    (unlanded : ¬ ∃ bundle, Lands manager library crypto self now jsonText start bundle) :
    Atomic manager library crypto self now jsonText start := by
  intro env err later ended
  have kept : Program.Triple (· = start)
      (applyBundle manager library env crypto self now jsonText)
      (fun result dir => ∀ err, result = .rejected err → Unchanged start dir) (fun _ _ => True)
      (fun _ => True) := by
    rw [applyBundle]
    cases parsed : library.parse jsonText with
    | error what =>
        refine Program.Triple.pure ?_
        rintro dir rfl
        exact fun _ _ => Unchanged.refl dir
    | ok document =>
        have checked : Program.Triple (· = start)
            (applyChecked manager library env crypto self now document)
            (fun result _ => ∀ err, result ≠ .rejected err) (fun _ => Unchanged start)
            (fun _ => True) := by
          refine applyChecked_triple (fun _ => Unchanged.refl start) trivial
            fun bundle accepted => ?_
          have elsewhere : ¬ bundle.header.target.hits self = true := fun hit =>
            unlanded ⟨bundle, document, _, parsed, readSeq_eq_or env start, accepted, hit⟩
          rw [conclude, if_neg elsewhere]
          refine Program.Triple.bind (fun _ _ => True)
            (storeMaxSeq_spec.weaken (fun _ given => given) (fun _ _ _ => trivial)
              (fun _ _ given => given.2) fun _ _ => trivial) fun _ => ?_
          exact Program.Triple.pure fun _ _ _ impossible => nomatch impossible
        have refusals : Program.Triple (· = start)
            (applyChecked manager library env crypto self now document)
            (fun result dir => ∀ err, result = .rejected err → Unchanged start dir)
            (fun _ => Unchanged start) (fun _ => True) :=
          checked.weaken (fun _ given => given)
            (fun result _ given err refused => absurd refused (given err))
            (fun _ _ given => given) (fun _ given => given)
        exact refusals.handle (fun _ _ _ dir given _ _ => given) fun _ _ _ _ _ => trivial
  have reached := kept start rfl
  rw [ended] at reached
  exact Unchanged.configuration (reached err rfl)

end Refused

section Landed

variable {manager : ConfigManager} {library : ConfigLibrary} {crypto : Crypto}
  {self : DeviceIdentity} {now : Int} {jsonText : List UInt8} {start : ConfigDir}
  {env : ConfigStep → Fault} {bundle : ConfigBundle}

/-- The recorded versions cannot be read, and then not written in one of two ways. -/
def unrecorded (read writeFault renameFault : Fault) : ConfigStep → Fault
  | .readMaxSeq => read
  | .readVersions => .fail 0
  | .writeVersions => writeFault
  | .renameVersions => renameFault
  | _ => .none

variable (manager library now bundle)

private theorem landItems_run (read writeFault renameFault : Fault)
    (items : List (ConfigItem × Nat)) (versions : List (String × Value)) (dir : ConfigDir)
    (present : dir.current.isSome = true) :
    ∃ members later, later.current.isSome = true ∧
      (landItems manager library (unrecorded read writeFault renameFault) now bundle items
          (.object versions)).run dir = .returned (.object members) later := by
  induction items generalizing versions dir with
  | nil => exact ⟨versions, dir, present, rfl⟩
  | cons entry rest ih =>
      obtain ⟨item, index⟩ := entry
      obtain ⟨files, found⟩ := Option.isSome_iff_exists.mp present
      obtain ⟨members, later, kept, landed⟩ :=
        ih (versions ++ [(item.name, .string item.itemVersion)])
          { dir with
            current := some (placed files (itemFile item) (itemBody item))
            audit := dir.audit ++ auditLine library now bundle item }
          rfl
      refine ⟨members, later, kept, ?_⟩
      have written := atomicWrite_run manager (itemFile item) (itemBody item) found
      simp only [landItems, unrecorded, Program.run_bind, written, Outcome.andThen_returned,
        Value.assign, unguarded, Except.mapError, Program.run_ofExcept_ok, appendAudit,
        Program.run_step_none, landed]

/-- All but the last files are in place when the recorded versions are written. -/
private theorem land_run (read writeFault renameFault : Fault) (dir : ConfigDir) :
    ∃ members files later, later.current = some files ∧
      ∀ err failed,
        (atomicWrite manager writeFault renameFault versionsFile
            (versionsText library (.object members))).run later = .threw (.rejected err) failed →
        (land manager library (unrecorded read writeFault renameFault) now bundle).run dir =
          .threw (.rejected err) failed := by
  obtain ⟨members, later, kept, landed⟩ :=
    landItems_run manager library now bundle read writeFault renameFault bundle.items.zipIdx []
      { dir with current := dir.current.or (some .empty) } (by cases dir.current <;> rfl)
  obtain ⟨files, found⟩ := Option.isSome_iff_exists.mp kept
  refine ⟨members, files, later, found, fun err failed ended => ?_⟩
  simp only [land, createCurrent, readVersions, unrecorded, Program.run_bind,
    Program.run_step_none, Program.run_step_fail, Outcome.andThen_returned]
  rw [landed]
  simp only [Outcome.andThen_returned, ended, Outcome.andThen_threw]

theorem versionsText_ne_nil (versions : Value) :
    versionsText library versions ≠ [] := by
  rw [versionsText, utf8_append]
  exact List.append_ne_nil_of_right_ne_nil _ (by decide)

/-- One of the two failures leaves another temporary file than there was. -/
theorem land_leaves (read : Fault) (start : ConfigDir) :
    ∃ writeFault renameFault err later,
      (land manager library (unrecorded read writeFault renameFault) now bundle).run start =
        .threw (.rejected err) later ∧
      later.file? (versionsFile ++ ".tmp") ≠ start.file? (versionsFile ++ ".tmp") := by
  by_cases emptied : start.file? (versionsFile ++ ".tmp") = some []
  · obtain ⟨members, files, later, found, ends⟩ :=
      land_run manager library now bundle read .none (.fail 0) start
    obtain ⟨err, unrenamed⟩ := atomicWrite_unrenamed manager versionsFile
      (versionsText library (.object members)) files found
    refine ⟨_, _, err, _, ends err _ unrenamed, ?_⟩
    rw [emptied]
    simp only [ConfigDir.file?, Option.bind_some, OrderedMap.find?_insert_self, ne_eq,
      Option.some.injEq]
    exact versionsText_ne_nil library _
  · obtain ⟨members, files, later, found, ends⟩ :=
      land_run manager library now bundle read (.fail 1) .none start
    obtain ⟨err, cut⟩ := atomicWrite_cut manager versionsFile
      (versionsText library (.object members)) .none files found
    refine ⟨_, _, err, _, ends err _ cut, ?_⟩
    simp only [ConfigDir.file?, Option.bind_some, OrderedMap.find?_insert_self]
    exact Ne.symm emptied

variable {manager library now bundle}

theorem not_atomic_of_lands
    (lands : Lands manager library crypto self now jsonText start bundle) :
    ¬ Atomic manager library crypto self now jsonText start := by
  obtain ⟨document, seq, parsed, stored, accepted, hit⟩ := lands
  obtain ⟨read, readable, reads⟩ : ∃ read : Fault, (∀ progress, read ≠ .crash progress) ∧
      seqRead read (maxSeq start) = seq := by
    rcases stored with rfl | rfl
    · exact ⟨.none, (fun _ impossible => nomatch impossible), rfl⟩
    · exact ⟨.fail 0, (fun _ impossible => nomatch impossible), rfl⟩
  obtain ⟨writeFault, renameFault, err, later, landed, changed⟩ :=
    land_leaves manager library now bundle read start
  have run : (applyBundle manager library (unrecorded read writeFault renameFault) crypto self now
      jsonText).run start = .returned (.rejected err) later := by
    rw [applyBundle, parsed]
    have accepted' : manager.accept crypto now
        (readSeq (unrecorded read writeFault renameFault) start) document = .ok bundle := by
      rw [readSeq]
      exact reads ▸ accepted
    simp only [Program.run_handle, applyChecked_run readable accepted', conclude, hit, if_true,
      landed, refusal]
  intro atomic
  have same := atomic _ err later run
  exact changed (congrFun (congrArg Configuration.files same) _)

end Landed

end Idsm.Managerd.ConfigManager
