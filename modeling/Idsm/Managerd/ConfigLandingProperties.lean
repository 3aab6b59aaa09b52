import Idsm.Managerd.ConfigAdmissionProperties

/-! What the steps of a landing do to the configuration directory, however they end. -/

set_option autoImplicit false

namespace Idsm.Managerd

open Idsm.Foundation
open Idsm.Json (Value)

namespace ConfigManager

variable {manager : ConfigManager} {library : ConfigLibrary} {env : ConfigStep → Fault}
  {start : ConfigDir}

section Storing

variable {seq : Int}

/-- The configuration under `current` and the stored number. -/
def Unchanged (start dir : ConfigDir) : Prop :=
  dir.current = start.current ∧ dir.maxSeqFile = start.maxSeqFile

theorem Unchanged.refl (dir : ConfigDir) : Unchanged dir dir := ⟨rfl, rfl⟩

theorem Unchanged.configuration {dir : ConfigDir} (same : Unchanged start dir) :
    dir.configuration = start.configuration := by
  have files : dir.file? = start.file? := by
    funext name
    rw [ConfigDir.file?, ConfigDir.file?, same.1]
  rw [ConfigDir.configuration, ConfigDir.configuration, files, same.2]

/-- A refused or interrupted store leaves the configuration as it was. -/
theorem storeMaxSeq_spec :
    Program.Triple (· = start) (storeMaxSeq env seq)
      (fun _ dir => dir.current = start.current ∧ dir.maxSeqFile = some (seqText seq))
      (fun stop dir => (∃ err, stop = .rejected err) ∧ Unchanged start dir) (Unchanged start) := by
  refine Program.Triple.bind
    (fun written dir => Unchanged start dir ∧
      (written = true → dir.maxSeqTmp = some (seqText seq)))
    (Program.Triple.step ?_ ?_ ?_) fun written => ?_
  · rintro _ dir rfl
    exact ⟨⟨rfl, rfl⟩, fun _ => rfl⟩
  · rintro progress _ dir rfl
    exact ⟨⟨rfl, rfl⟩, by rintro ⟨⟩⟩
  · rintro progress _ dir rfl
    exact ⟨rfl, rfl⟩
  refine Program.Triple.bind _ (require_triple fun _ dir given => ⟨⟨_, rfl⟩, given.1⟩) fun _ => ?_
  refine Program.Triple.bind
    (fun renamed dir => (renamed = true → dir.current = start.current ∧
        dir.maxSeqFile = some (seqText seq)) ∧
      (renamed = false → Unchanged start dir))
    (Program.Triple.step ?_ ?_ ?_) fun renamed => ?_
  · rintro _ dir ⟨written, unchanged, stored⟩
    exact ⟨fun _ => ⟨unchanged.1, stored written⟩, by rintro ⟨⟩⟩
  · rintro progress _ dir ⟨_, unchanged, _⟩
    exact ⟨(by rintro ⟨⟩), fun _ => unchanged⟩
  · rintro progress _ dir ⟨_, unchanged, _⟩
    exact unchanged
  refine Program.Triple.bind _ (require_triple fun failed dir given =>
    ⟨⟨_, rfl⟩, given.2 (by simpa using failed)⟩) fun _ => Program.Triple.pure fun dir given => ?_
  exact given.2.1 given.1

end Storing

section Landing

variable {file : String} {content : List UInt8} {writeFault renameFault : Fault}

/-- The file is put in its place by way of the temporary one. -/
def placed (files : OrderedMap String (List UInt8)) (file : String) (content : List UInt8) :
    OrderedMap String (List UInt8) :=
  ((files.insert (file ++ ".tmp") content).erase (file ++ ".tmp")).insert file content

theorem atomicWrite_spec :
    Program.Triple (· = start) (atomicWrite manager writeFault renameFault file content)
      (fun _ dir => ∃ files, start.current = some files ∧
        dir = { start with current := some (placed files file content) })
      (fun stop _ => ∃ err, stop = .rejected err) (fun _ => True) := by
  refine Program.Triple.bind
    (fun written dir => written = true → ∃ files, start.current = some files ∧
      dir = { start with current := some (files.insert (file ++ ".tmp") content) })
    (Program.Triple.step ?_ (fun _ _ _ _ impossible => nomatch impossible) fun _ _ _ _ => trivial)
    fun written => ?_
  · rintro _ dir rfl written
    rw [ConfigDir.write] at written ⊢
    split at written
    next => cases written
    next files found => simp only [found]; exact ⟨files, rfl, rfl⟩
  refine Program.Triple.bind _ (require_triple fun _ _ _ => ⟨_, rfl⟩) fun _ => ?_
  refine Program.Triple.bind
    (fun renamed dir => renamed = true → ∃ files, start.current = some files ∧
      dir = { start with current := some (placed files file content) })
    (Program.Triple.step ?_ (fun _ _ _ _ impossible => nomatch impossible) fun _ _ _ _ => trivial)
    fun renamed => ?_
  · rintro _ dir ⟨written, wrote⟩ _
    obtain ⟨files, found, rfl⟩ := wrote written
    refine ⟨files, found, ?_⟩
    simp only [ConfigDir.moveInto, ConfigDir.file?, Option.bind_some, OrderedMap.find?_insert_self,
      placed]
  refine Program.Triple.bind _ (require_triple fun _ _ _ => ⟨_, rfl⟩) fun _ =>
    Program.Triple.pure fun dir given => given.2 given.1

variable (manager file content)

/-- Without faults the file always gets to its place. -/
theorem atomicWrite_run {files : OrderedMap String (List UInt8)}
    (found : start.current = some files) :
    (atomicWrite manager .none .none file content).run start =
      .returned () { start with current := some (placed files file content) } := by
  obtain ⟨current, maxSeqFile, maxSeqTmp, audit⟩ := start
  obtain rfl : current = some files := found
  simp only [atomicWrite, Program.run_bind, Program.run_step_none, ConfigDir.write,
    Outcome.andThen_returned, require_of, Program.run_ofExcept_ok, ConfigDir.moveInto,
    ConfigDir.file?, Option.bind_some, OrderedMap.find?_insert_self, Program.run_pure, placed]

theorem atomicWrite_cut (renameFault : Fault) (files : OrderedMap String (List UInt8))
    (found : start.current = some files) :
    ∃ err, (atomicWrite manager (.fail 1) renameFault file content).run start =
      .threw (.rejected err) { start with current := some (files.insert (file ++ ".tmp") []) } := by
  obtain ⟨current, maxSeqFile, maxSeqTmp, audit⟩ := start
  obtain rfl : current = some files := found
  exact ⟨_, rfl⟩

theorem atomicWrite_unrenamed (files : OrderedMap String (List UInt8))
    (found : start.current = some files) :
    ∃ err, (atomicWrite manager .none (.fail 0) file content).run start =
      .threw (.rejected err)
        { start with current := some (files.insert (file ++ ".tmp") content) } := by
  obtain ⟨current, maxSeqFile, maxSeqTmp, audit⟩ := start
  obtain rfl : current = some files := found
  exact ⟨_, rfl⟩

end Landing

section Application

variable {crypto : Crypto} {self : DeviceIdentity} {now : Int} {document : Value}

/-- The stored number as the application reads it. -/
def readSeq (env : ConfigStep → Fault) (dir : ConfigDir) : Int :=
  seqRead (env .readMaxSeq) (maxSeq dir)

theorem readSeq_eq_or (env : ConfigStep → Fault) (dir : ConfigDir) :
    readSeq env dir = maxSeq dir ∨ readSeq env dir = maxSeqOf none :=
  seqRead_eq_or _ _

theorem applyChecked_triple {done : ConfigApply → ConfigDir → Prop}
    {raised : Stop → ConfigDir → Prop} {dead : ConfigDir → Prop}
    (refused : ∀ stop, raised stop start) (died : dead start)
    (concludes : ∀ bundle,
      manager.accept crypto now (readSeq env start) document = .ok bundle →
      Program.Triple (· = start) (conclude manager library env self now bundle) done raised dead) :
    Program.Triple (· = start) (applyChecked manager library env crypto self now document)
      done raised dead :=
  admitThen_triple refused died concludes

theorem applyChecked_run (readable : ∀ progress, env .readMaxSeq ≠ .crash progress)
    {bundle : ConfigBundle}
    (accepted : manager.accept crypto now (readSeq env start) document = .ok bundle) :
    (applyChecked manager library env crypto self now document).run start =
      (conclude manager library env self now bundle).run start :=
  admitThen_run readable accepted

end Application

/-! Sample bundles for the concrete runs. -/

def configManagerSample : ConfigManager := ⟨"config", "", "AAAA"⟩

/-- A list of one entry. -/
def itemDocument (item : String × String) : Value :=
  .object [("config_name", .string item.1), ("config_value", .array [.string item.2]),
    ("config_version", .string "1")]

/-- A complete bundle document of such lists. -/
def configDocument (seq : UInt64) (ecu nodeType : String) (items : List (String × String)) :
    Value :=
  .object
    [("msg_type", .string "config_update"), ("manufacturer", .string "caic"),
      ("seq", .unsigned seq), ("version", .string "c1"), ("rollback", .boolean false),
      ("target", .object [("ecu", .string ecu), ("nodeType", .string nodeType),
        ("vmodel", .string "all")]),
      ("config_type", .unsigned 1), ("items", .array (items.map itemDocument)),
      ("issued_at", .unsigned 1000), ("expires_at", .unsigned 2000),
      ("sig_alg", .string "Ed25519"), ("pubkey_id", .string "0000000000000000"),
      ("signature", .string "AAAA")]

/-- A bundle with one list of one entry. -/
def documentSample : Value := configDocument 5 "all" "all" [("app_w_list", "a")]

theorem readConfigDraft_sample : ∃ draft, readConfigDraft 1500 documentSample = .ok draft := by
  have checked : (readConfigDraft 1500 documentSample).toOption.isSome = true := by decide +kernel
  cases read : readConfigDraft 1500 documentSample with
  | error stop =>
      rw [read] at checked
      cases checked
  | ok draft => exact ⟨draft, rfl⟩

def itemText (item : String × String) : List UInt8 :=
  ["\x7b\"config_name\":\"", item.1, "\",\"config_value\":[\"", item.2,
    "\"],\"config_version\":\"1\"\x7d"].flatMap utf8

def configText (items : List (String × String)) : List UInt8 :=
  ["\x7b\"msg_type\":\"config_update\",", "\"manufacturer\":\"caic\",\"seq\":5,",
    "\"version\":\"c1\",\"rollback\":false,", "\"target\":\x7b\"ecu\":\"all\",",
    "\"nodeType\":\"all\",", "\"vmodel\":\"all\"\x7d,", "\"config_type\":1,", "\"items\":["].flatMap
      utf8 ++
  (utf8 ",").intercalate (items.map itemText) ++
  ["],\"issued_at\":1000,", "\"expires_at\":2000,", "\"sig_alg\":\"Ed25519\",",
    "\"pubkey_id\":\"0000000000000000\",", "\"signature\":\"AAAA\"\x7d"].flatMap utf8

/-- The libraries on the sample texts. -/
def configLibrarySample (samples : List (List (String × String))) : ConfigLibrary where
  parse text :=
    match samples.find? fun items => configText items == text with
    | some items => .ok (configDocument 5 "all" "all" items)
    | none => .error (utf8 "parse error")
  parseStream _ := .error (utf8 "parse error")
  floatText _ := ""

theorem parse_configText_self (items : List (String × String)) :
    (configLibrarySample [items]).parse (configText items) =
      .ok (configDocument 5 "all" "all" items) := by
  simp [configLibrarySample]

end ConfigManager

end Idsm.Managerd
