import Idsm.Managerd.SnapshotProperties

/-! One call of the snapshot pump from a given directory, and what its environment may make of
each of its actions. -/

set_option autoImplicit false

namespace Idsm.Managerd

open Idsm.Foundation

/-- What becomes of an action; it may depend on what was published before. -/
abbrev SnapshotWorld : Type := List SnapshotMessage → SnapshotAct → Choice

section Calls

variable (library : SnapshotLibrary) (sender : SnapshotSender) (nowMs : Int)
  (world : SnapshotWorld) (store : SnapshotStore) (transfer : String)

namespace SnapshotStore

def inWorld (action : SnapshotAct) : action.Answer × SnapshotStore :=
  store.performs .mainLoop action (world store.log action)

/-- The record as the pump reads it. -/
def readsMeta : MetaFile := (store.inWorld world (.readMeta transfer)).1

def readsChunk (index : Nat) : Option (List UInt8) :=
  (store.inWorld world (.readChunk transfer index)).1

/-- Marked by the pump. -/
def entered : SnapshotStore :=
  { store with inUse := Function.update store.inUse .mainLoop (some transfer) }

/-- After these messages. -/
def logged (messages : List SnapshotMessage) : SnapshotStore :=
  { store with log := store.log ++ messages }

def pendingNames : List String := (store.dirs .pending).entries.map Prod.fst

end SnapshotStore

def pumpCall : PumpResult × SnapshotStore :=
  (pump library sender nowMs).runIn (SnapshotStore.inWorld world) store

end Calls

variable {library : SnapshotLibrary} {sender : SnapshotSender} {nowMs : Int}
  {world : SnapshotWorld} {store later : SnapshotStore} {transfer : String}
  {record : SnapshotMeta}

section Acts

theorem logged_nil : store.logged [] = store := by
  rw [SnapshotStore.logged, List.append_nil]

theorem logged_logged (first second : List SnapshotMessage) :
    (store.logged first).logged second = store.logged (first ++ second) := by
  rw [SnapshotStore.logged, SnapshotStore.logged, SnapshotStore.logged, List.append_assoc]

@[simp] theorem runIn_enter : (enter transfer).runIn (SnapshotStore.inWorld world) store =
    ((), store.entered transfer) := rfl

@[simp] theorem runIn_readMeta : (readMeta transfer).runIn (SnapshotStore.inWorld world) store =
    (store.readsMeta world transfer, store) := by
  change store.inWorld world (.readMeta transfer) = _
  rw [SnapshotStore.readsMeta, SnapshotStore.inWorld]
  cases world store.log (.readMeta transfer) <;> rfl

@[simp] theorem runIn_readChunk {index : Nat} :
    (readChunk transfer index).runIn (SnapshotStore.inWorld world) store =
      (store.readsChunk world transfer index, store) := by
  change store.inWorld world (.readChunk transfer index) = _
  rw [SnapshotStore.readsChunk, SnapshotStore.inWorld]
  cases world store.log (.readChunk transfer index) <;> rfl

theorem runIn_listPending : listPending.runIn (SnapshotStore.inWorld world) store =
    (if world store.log .listPending = .succeed then store.pendingNames else [], store) := by
  change store.inWorld world .listPending = _
  rw [SnapshotStore.inWorld]
  cases world store.log .listPending <;> rfl

theorem runIn_publish (message : SnapshotMessage) :
    (publish message).runIn (SnapshotStore.inWorld world) store =
      if world store.log (.publish message) = .succeed then
        (true, store.logged [message])
      else (false, store) := by
  change store.inWorld world (.publish message) = _
  rw [SnapshotStore.inWorld]
  cases world store.log (.publish message) <;> rfl

/-- A move away leaves the other directories where they are. -/
theorem runIn_renameDir {target : Place} (away : target ≠ .pending) :
    ∃ moved later, (renameDir transfer .pending target).runIn (SnapshotStore.inWorld world) store =
        (moved, later) ∧ later.log = store.log ∧
      (∀ name ≠ transfer, later.dir? .pending name = store.dir? .pending name) ∧
      (later.dir? .pending transfer = store.dir? .pending transfer ∨
        later.dir? .pending transfer = none) := by
  have unmoved : ∀ name ≠ transfer, store.dir? .pending name = store.dir? .pending name :=
    fun _ _ => rfl
  cases choice : world store.log (.renameDir .pending target transfer) with
  | fail torn =>
      refine ⟨false, store, ?_, rfl, unmoved, .inl rfl⟩
      change store.inWorld world (.renameDir .pending target transfer) = _
      rw [SnapshotStore.inWorld, choice]
      rfl
  | succeed =>
      cases source : store.dir? .pending transfer with
      | none =>
          refine ⟨false, store, ?_, rfl, unmoved, .inr source⟩
          change store.inWorld world (.renameDir .pending target transfer) = _
          rw [SnapshotStore.inWorld, choice, SnapshotStore.performs, source]
          rfl
      | some dir =>
          cases taken : store.dir? target transfer with
          | some other =>
              refine ⟨false, store, ?_, rfl, unmoved, .inl source⟩
              change store.inWorld world (.renameDir .pending target transfer) = _
              rw [SnapshotStore.inWorld, choice, SnapshotStore.performs, source, taken]
              rfl
          | none =>
              refine ⟨true, (store.eraseDir .pending transfer).setDir target transfer dir, ?_, rfl,
                fun name other => ?_, .inr ?_⟩
              · change store.inWorld world (.renameDir .pending target transfer) = _
                rw [SnapshotStore.inWorld, choice, SnapshotStore.performs, source, taken]
                rfl
              · rw [SnapshotStore.dir?_setDir, if_neg fun both => away both.1.symm,
                  SnapshotStore.dir?_eraseDir, if_neg fun both => other both.2.symm]
              · rw [SnapshotStore.dir?_setDir, if_neg fun both => away both.1.symm,
                  SnapshotStore.dir?_eraseDir, if_pos ⟨rfl, rfl⟩]

/-- An action appends to the log at most. -/
theorem log_inWorld (store : SnapshotStore) (action : SnapshotAct) :
    store.log <+: (store.inWorld world action).2.log := by
  rw [SnapshotStore.inWorld]
  generalize world store.log action = choice
  cases action with
  | publish message =>
      cases choice with
      | succeed => exact List.prefix_append _ _
      | fail torn => exact List.prefix_rfl
  | writeChunk transfer data =>
      cases choice with
      | fail torn => exact List.prefix_rfl
      | succeed =>
          rw [SnapshotStore.performs]
          cases store.dir? .pending transfer <;> exact List.prefix_rfl
  | writeTmp transfer record =>
      cases choice with
      | succeed =>
          rw [SnapshotStore.performs]
          cases store.dir? .pending transfer <;> exact List.prefix_rfl
      | fail torn =>
          cases torn with
          | false => exact List.prefix_rfl
          | true =>
              rw [SnapshotStore.performs]
              cases store.dir? .pending transfer <;> exact List.prefix_rfl
  | renameTmp transfer =>
      cases choice with
      | fail torn => exact List.prefix_rfl
      | succeed =>
          rw [SnapshotStore.performs]
          cases store.dir? .pending transfer with
          | none => exact List.prefix_rfl
          | some dir =>
              dsimp only
              by_cases missing : dir.metaTmp = .missing
              · rw [if_pos missing]
              · rw [if_neg missing]
                exact List.prefix_rfl
  | renameDir source target transfer =>
      cases choice with
      | fail torn => exact List.prefix_rfl
      | succeed =>
          rw [SnapshotStore.performs]
          cases store.dir? source transfer with
          | none => exact List.prefix_rfl
          | some dir => cases store.dir? target transfer <;> exact List.prefix_rfl
  | _ => cases choice <;> exact List.prefix_rfl

theorem log_runIn {α : Type} (thread : SnapshotThread α) (store : SnapshotStore) :
    store.log <+: (thread.runIn (SnapshotStore.inWorld world) store).2.log :=
  @Thread.runIn_relates SnapshotAct SnapshotStore α SnapshotAct.Answer
    (SnapshotStore.inWorld world) (fun store later => store.log <+: later.log)
    (fun store => List.prefix_refl store.log) (fun first second => List.IsPrefix.trans first second)
    log_inWorld thread store

end Acts

section Reading

theorem performs_readMeta (choice : Choice) :
    (store.performs .mainLoop (.readMeta transfer) choice).1 =
      if choice = .succeed then
        ((store.dir? .pending transfer).map TransferDir.metaJson).getD .missing
      else .missing := by
  cases choice <;> rfl

theorem performs_readChunk {index : Nat} (choice : Choice) :
    (store.performs .mainLoop (.readChunk transfer index) choice).1 =
      if choice = .succeed then
        (store.dir? .pending transfer).bind fun dir => dir.chunks[index]?
      else none := by
  cases choice <;> rfl

theorem readsMeta_congr (log : later.log = store.log)
    (same : later.dir? .pending transfer = store.dir? .pending transfer) :
    later.readsMeta world transfer = store.readsMeta world transfer := by
  rw [SnapshotStore.readsMeta, SnapshotStore.readsMeta, SnapshotStore.inWorld,
    SnapshotStore.inWorld, performs_readMeta, performs_readMeta, log, same]

theorem readsChunk_congr (log : later.log = store.log)
    (same : later.dir? .pending transfer = store.dir? .pending transfer) :
    later.readsChunk world transfer = store.readsChunk world transfer := by
  funext index
  rw [SnapshotStore.readsChunk, SnapshotStore.readsChunk, SnapshotStore.inWorld,
    SnapshotStore.inWorld, performs_readChunk, performs_readChunk, log, same]

theorem readsMeta_gone (gone : store.dir? .pending transfer = none) :
    store.readsMeta world transfer = .missing := by
  rw [SnapshotStore.readsMeta, SnapshotStore.inWorld, performs_readMeta, gone]
  exact ite_self _

/-- Of a transfer that is not there no record is read. -/
theorem mem_pendingNames (read : store.readsMeta world transfer = .whole record) :
    transfer ∈ store.pendingNames := by
  cases there : store.dir? .pending transfer with
  | none => exact absurd ((readsMeta_gone there).symm.trans read) nofun
  | some dir =>
      have entry := (OrderedMap.mem_entries_iff _ _ _).2 there
      exact List.mem_map_of_mem entry

theorem readsChunk_entered (transfer : String) :
    (store.entered transfer).readsChunk world transfer = store.readsChunk world transfer :=
  readsChunk_congr rfl rfl

end Reading

section Parts

variable {progressed : Bool}

/-- One transfer, behind its chunks. -/
def pumpEnd (transfer : String) (record : SnapshotMeta) (budget : Nat) (progressed : Bool) :
    SnapshotThread (PumpPart Bool) := do
  if record.nextChunks = [] then
    let _ ← renameDir transfer .pending .done
    if budget = 0 then return .stop ⟨progressed, ""⟩ else return .goOn progressed
  else
    match ← saveMeta transfer record with
    | some err => return .stop ⟨progressed, err⟩
    | none => if budget = 0 then return .stop ⟨progressed, ""⟩ else return .goOn progressed

/-- One transfer, behind its record. -/
def pumpRecord (library : SnapshotLibrary) (sender : SnapshotSender) (nowMs : Int)
    (transfer : String) (record : SnapshotMeta) (progressed : Bool) :
    SnapshotThread (PumpPart Bool) := do
  if kSnapshotTransferTtlMs < nowMs - record.createdMs then
    let _ ← renameDir transfer .pending .expired
    return .goOn progressed
  else
    match ← pumpMeta sender nowMs transfer record progressed with
    | .stop result => return .stop result
    | .goOn (record, progressed) =>
        match ← pumpChunks library sender nowMs transfer kSnapshotChunksPerPump record
            progressed with
        | .stop result => return .stop result
        | .goOn (record, budget, progressed) => pumpEnd transfer record budget progressed

/-- The record is read behind the mark of the thread, which changes nothing else. -/
theorem runIn_pumpTransfer :
    (pumpTransfer library sender nowMs transfer progressed).runIn (SnapshotStore.inWorld world)
        store =
      (match store.readsMeta world transfer with
        | .missing => return .goOn progressed
        | .torn => return .goOn progressed
        | .whole record => pumpRecord library sender nowMs transfer record progressed
        : SnapshotThread (PumpPart Bool)).runIn (SnapshotStore.inWorld world)
          (store.entered transfer) := by
  have same : (store.entered transfer).readsMeta world transfer = store.readsMeta world transfer :=
    readsMeta_congr rfl rfl
  rw [pumpTransfer, Thread.runIn_bind, runIn_enter, Thread.runIn_bind, runIn_readMeta]
  dsimp only
  rw [same]
  cases store.readsMeta world transfer <;> rfl

theorem pumpMeta_sent (sent : record.metaSent = true) :
    pumpMeta sender nowMs transfer record progressed = pure (.goOn (record, progressed)) := by
  rw [pumpMeta, if_pos sent]

theorem pumpChunks_idle (next : record.nextChunks = []) (budget : Nat) :
    pumpChunks library sender nowMs transfer budget record progressed =
      pure (.goOn (record, budget, progressed)) := by
  cases budget with
  | zero => rfl
  | succ budget => rw [pumpChunks, next]

end Parts

section Saving

/-- At most the records of one pending transfer changed. -/
structure Tended (transfer : String) (store later : SnapshotStore) : Prop where
  log : later.log = store.log
  others : ∀ place name, ¬ (place = .pending ∧ name = transfer) →
    later.dir? place name = store.dir? place name
  chunks : (later.dir? .pending transfer).map TransferDir.chunks =
    (store.dir? .pending transfer).map TransferDir.chunks

theorem Tended.refl (store : SnapshotStore) : Tended transfer store store :=
  ⟨rfl, fun _ _ _ => rfl, rfl⟩

theorem Tended.trans {now : SnapshotStore} (first : Tended transfer store now)
    (second : Tended transfer now later) : Tended transfer store later :=
  ⟨second.log.trans first.log,
    fun place name apart => (second.others place name apart).trans (first.others place name apart),
    second.chunks.trans first.chunks⟩

/-- A directory rewritten with its chunks. -/
theorem tended_setDir {dir changed : TransferDir} (there : store.dir? .pending transfer = some dir)
    (same : changed.chunks = dir.chunks) :
    Tended transfer store (store.setDir .pending transfer changed) := by
  refine ⟨rfl, fun place name apart => ?_, ?_⟩
  · rw [SnapshotStore.dir?_setDir, if_neg fun both => apart ⟨both.1, both.2.symm⟩]
  · rw [SnapshotStore.dir?_setDir, if_pos ⟨rfl, rfl⟩, there, Option.map_some, Option.map_some, same]

/-- Records of the transfer can be written. -/
structure Saves (world : SnapshotWorld) (transfer : String) : Prop where
  writes : ∀ log record, world log (.writeTmp transfer record) = .succeed
  renames : ∀ log, world log (.renameTmp transfer) = .succeed

theorem runIn_writeTmp (record : SnapshotMeta) :
    ∃ written later, (writeTmp transfer record).runIn (SnapshotStore.inWorld world) store =
        (written, later) ∧ Tended transfer store later ∧
      (later.dir? .pending transfer).map TransferDir.metaJson =
        (store.dir? .pending transfer).map TransferDir.metaJson ∧
      (written = true → ∃ dir, later.dir? .pending transfer = some dir ∧
        dir.metaTmp = .whole record) ∧
      (Saves world transfer → (store.dir? .pending transfer).isSome = true → written = true) := by
  have run : ∀ choice, world store.log (.writeTmp transfer record) = choice →
      (writeTmp transfer record).runIn (SnapshotStore.inWorld world) store =
        store.performs .mainLoop (.writeTmp transfer record) choice := fun _ same => same ▸ rfl
  cases there : store.dir? .pending transfer with
  | none =>
      cases choice : world store.log (.writeTmp transfer record) with
      | succeed =>
          refine ⟨false, store, ?_, .refl store, there ▸ rfl, (by rintro ⟨⟩), (by rintro _ ⟨⟩)⟩
          rw [run _ choice, SnapshotStore.performs, there]
          rfl
      | fail torn =>
          refine ⟨false, store, ?_, .refl store, there ▸ rfl, (by rintro ⟨⟩), (by rintro _ ⟨⟩)⟩
          rw [run _ choice]
          cases torn with
          | false => rfl
          | true =>
              rw [SnapshotStore.performs, there]
              rfl
  | some dir =>
      have changed : ∀ file, Tended transfer store
            (store.setDir .pending transfer { dir with metaTmp := file }) ∧
          ((store.setDir .pending transfer { dir with metaTmp := file }).dir? .pending
            transfer).map TransferDir.metaJson = some dir.metaJson := by
        intro file
        refine ⟨tended_setDir there rfl, ?_⟩
        rw [SnapshotStore.dir?_setDir, if_pos ⟨rfl, rfl⟩]
        rfl
      cases choice : world store.log (.writeTmp transfer record) with
      | succeed =>
          refine ⟨true, store.setDir .pending transfer { dir with metaTmp := .whole record }, ?_,
            (changed _).1, (changed _).2,
            fun _ => ⟨{ dir with metaTmp := .whole record }, ?_, rfl⟩, fun _ _ => rfl⟩
          · rw [run _ choice, SnapshotStore.performs, there]
            rfl
          · rw [SnapshotStore.dir?_setDir, if_pos ⟨rfl, rfl⟩]
      | fail torn =>
          have fails : Saves world transfer → (some dir).isSome = true → false = true :=
            fun saves _ => absurd (choice.symm.trans (saves.writes _ _)) (by rintro ⟨⟩)
          cases torn with
          | false =>
              refine ⟨false, store, ?_, .refl store, there ▸ rfl, (by rintro ⟨⟩), fails⟩
              rw [run _ choice]
              rfl
          | true =>
              refine ⟨false, store.setDir .pending transfer { dir with metaTmp := .torn }, ?_,
                (changed _).1, (changed _).2, (by rintro ⟨⟩), fails⟩
              rw [run _ choice, SnapshotStore.performs, there]
              rfl

theorem runIn_renameTmp {record : SnapshotMeta} {dir : TransferDir}
    (there : store.dir? .pending transfer = some dir) (written : dir.metaTmp = .whole record) :
    ∃ renamed later, (renameTmp transfer).runIn (SnapshotStore.inWorld world) store =
        (renamed, later) ∧ Tended transfer store later ∧
      (later.dir? .pending transfer).map TransferDir.metaJson =
        some (if renamed then .whole record else dir.metaJson) ∧
      (Saves world transfer → renamed = true) := by
  have run : ∀ choice, world store.log (.renameTmp transfer) = choice →
      (renameTmp transfer).runIn (SnapshotStore.inWorld world) store =
        store.performs .mainLoop (.renameTmp transfer) choice := fun _ same => same ▸ rfl
  cases choice : world store.log (.renameTmp transfer) with
  | succeed =>
      refine ⟨true, store.setDir .pending transfer
        { dir with metaJson := dir.metaTmp, metaTmp := .missing }, ?_, tended_setDir there rfl, ?_,
        fun _ => rfl⟩
      · rw [run _ choice, SnapshotStore.performs, there]
        dsimp only
        rw [if_neg (written ▸ (by rintro ⟨⟩))]
        rfl
      · rw [SnapshotStore.dir?_setDir, if_pos ⟨rfl, rfl⟩, written]
        rfl
  | fail torn =>
      refine ⟨false, store, run _ choice, .refl store, ?_,
        fun saves => absurd (choice.symm.trans (saves.renames _)) (by rintro ⟨⟩)⟩
      rw [there]
      rfl

/-- A record is saved, or the old one is still there. -/
theorem runIn_saveMeta (record : SnapshotMeta) :
    ∃ err later, (saveMeta transfer record).runIn (SnapshotStore.inWorld world) store =
        (err, later) ∧ Tended transfer store later ∧
      (later.dir? .pending transfer).map TransferDir.metaJson =
        (store.dir? .pending transfer).map
          (fun dir => if err = none then .whole record else dir.metaJson) ∧
      (Saves world transfer → (store.dir? .pending transfer).isSome = true → err = none) := by
  obtain ⟨written, now, write, tended, kept, tmp, writes⟩ :=
    @runIn_writeTmp world store transfer record
  rw [saveMeta, Thread.runIn_bind, write]
  cases written with
  | false =>
      refine ⟨some "meta write failed", now, rfl, tended, ?_,
        fun saves there => absurd (writes saves there) nofun⟩
      rw [kept]
      rfl
  | true =>
      obtain ⟨dir, there, holds⟩ := tmp rfl
      obtain ⟨renamed, later, rename, further, moved, renames⟩ :=
        @runIn_renameTmp world now transfer record dir there holds
      dsimp only
      rw [if_pos rfl, Thread.runIn_bind, rename]
      rw [there] at kept
      cases renamed with
      | false =>
          refine ⟨some "meta rename: Input/output error", later, rfl, tended.trans further, ?_,
            fun saves _ => absurd (renames saves) nofun⟩
          rw [moved]
          exact kept
      | true =>
          refine ⟨none, later, rfl, tended.trans further, ?_, fun _ _ => rfl⟩
          rw [moved]
          cases before : store.dir? .pending transfer with
          | none => rw [before] at kept; cases kept
          | some old => rfl

end Saving

end Idsm.Managerd
