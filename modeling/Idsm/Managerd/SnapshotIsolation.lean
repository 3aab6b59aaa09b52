import Idsm.Managerd.SnapshotCalls
import Idsm.Managerd.SnapshotUploadProperties

/-! When one damaged transfer keeps the pump of the snapshots from the other ones. -/

set_option autoImplicit false

namespace Idsm.Managerd

open Idsm.Foundation

/-- What a transfer makes of its turn while publishing works: it publishes nothing and the next
one follows, it publishes nothing and the pump returns, or it publishes something. -/
inductive Turn where
  | passes
  | blocks
  | sends
  deriving DecidableEq

section Turns

variable (world : SnapshotWorld) (nowMs : Int) (store : SnapshotStore) (transfer : String)

namespace SnapshotStore

def turn : Turn :=
  match store.readsMeta world transfer with
  | .missing => .passes
  | .torn => .passes
  | .whole record =>
      if kSnapshotTransferTtlMs < nowMs - record.createdMs then .passes
      else if record.metaSent then
        match record.nextChunks with
        | [] => .passes
        | index :: _ => if (store.readsChunk world transfer index).isSome then .sends else .blocks
      else .sends

/-- An unexpired transfer with a well-formed record and all its chunk files still has chunks
to send. -/
structure Waits (record : SnapshotMeta) : Prop where
  read : store.readsMeta world transfer = .whole record
  formed : ∀ index ∈ record.nextChunks, index < record.totalChunks
  unexpired : nowMs - record.createdMs ≤ kSnapshotTransferTtlMs
  present : ∀ index < record.totalChunks, (store.readsChunk world transfer index).isSome = true
  unsent : record.nextChunks ≠ []

/-- The first transfer whose turn does not pass. -/
def firstActive (names : List String) : Option String :=
  names.find? fun name => store.turn world nowMs name != .passes

/-- The pump cannot list the transfers, or the first one that does not pass blocks it. -/
def Stuck : Prop :=
  world store.log .listPending ≠ .succeed ∨
    ∃ name, store.firstActive world nowMs store.pendingNames = some name ∧
      store.turn world nowMs name = .blocks

end SnapshotStore

end Turns

/-- A call that publishes nothing leaves no such transfer. -/
def Isolated (library : SnapshotLibrary) (sender : SnapshotSender) (nowMs : Int)
    (world : SnapshotWorld) (store : SnapshotStore) : Prop :=
  (pumpCall library sender nowMs world store).2.log = store.log →
    ∀ transfer record,
      ¬ (pumpCall library sender nowMs world store).2.Waits world nowMs transfer record

variable {library : SnapshotLibrary} {sender : SnapshotSender} {nowMs : Int}
  {world : SnapshotWorld} {store now later : SnapshotStore} {transfer : String}
  {record : SnapshotMeta} {progressed : Bool}

section Same

theorem turn_congr (log : later.log = store.log)
    (same : later.dir? .pending transfer = store.dir? .pending transfer) :
    later.turn world nowMs transfer = store.turn world nowMs transfer := by
  rw [SnapshotStore.turn, SnapshotStore.turn, readsMeta_congr log same, readsChunk_congr log same]

theorem sends_of_waits (waits : store.Waits world nowMs transfer record) :
    store.turn world nowMs transfer = .sends := by
  rw [SnapshotStore.turn, waits.read]
  dsimp only
  rw [if_neg (not_lt.2 waits.unexpired)]
  cases sent : record.metaSent with
  | false => rfl
  | true =>
      cases next : record.nextChunks with
      | nil => exact absurd next waits.unsent
      | cons index more =>
          have small := waits.formed index (next ▸ List.mem_cons_self)
          exact if_pos (waits.present index small)

end Same

section Thinning

/-- Nothing was published, and at most directories went away whose turn passes. -/
structure Thinned (world : SnapshotWorld) (nowMs : Int) (store later : SnapshotStore) : Prop where
  log : later.log = store.log
  dirs : ∀ name, later.dir? .pending name = store.dir? .pending name ∨
    store.turn world nowMs name = .passes ∧ later.dir? .pending name = none

theorem Thinned.refl (store : SnapshotStore) : Thinned world nowMs store store :=
  ⟨rfl, fun _ => .inl rfl⟩

theorem Thinned.turn (thinned : Thinned world nowMs store later) (name : String) :
    later.turn world nowMs name = store.turn world nowMs name := by
  cases thinned.dirs name with
  | inl same => exact turn_congr thinned.log same
  | inr gone =>
      rw [gone.1, SnapshotStore.turn, readsMeta_gone gone.2]

theorem Thinned.trans (first : Thinned world nowMs store now)
    (second : Thinned world nowMs now later) : Thinned world nowMs store later := by
  refine ⟨second.log.trans first.log, fun name => ?_⟩
  cases second.dirs name with
  | inr gone => exact .inr ⟨(first.turn name).symm.trans gone.1, gone.2⟩
  | inl same =>
      cases first.dirs name with
      | inl kept => exact .inl (same.trans kept)
      | inr gone => exact .inr ⟨gone.1, same.trans gone.2⟩

/-- What waits stays, and nothing else comes to wait. -/
theorem Thinned.waits_iff (thinned : Thinned world nowMs store later) :
    later.Waits world nowMs transfer record ↔ store.Waits world nowMs transfer record := by
  have same : ∀ {first second : SnapshotStore}, second.log = first.log →
      second.dir? .pending transfer = first.dir? .pending transfer →
        first.Waits world nowMs transfer record → second.Waits world nowMs transfer record := by
    intro first second log same waits
    refine ⟨(readsMeta_congr log same).trans waits.read, waits.formed, waits.unexpired, ?_,
      waits.unsent⟩
    rw [readsChunk_congr log same]
    exact waits.present
  constructor
  · intro waits
    cases thinned.dirs transfer with
    | inl kept => exact same thinned.log.symm kept.symm waits
    | inr gone => exact absurd ((readsMeta_gone gone.2).symm.trans waits.read) nofun
  · intro waits
    cases thinned.dirs transfer with
    | inl kept => exact same thinned.log kept waits
    | inr gone => exact absurd (gone.1.symm.trans (sends_of_waits waits)) nofun

theorem thinned_move {target : Place} (away : target ≠ .pending)
    (passes : store.turn world nowMs transfer = .passes) :
    ∃ moved later, (renameDir transfer .pending target).runIn (SnapshotStore.inWorld world) store =
        (moved, later) ∧ Thinned world nowMs store later := by
  obtain ⟨moved, later, run, log, others, own⟩ :=
    @runIn_renameDir world store transfer target away
  refine ⟨moved, later, run, log, fun name => ?_⟩
  by_cases same : name = transfer
  · rw [same]
    cases own with
    | inl kept => exact .inl kept
    | inr gone => exact .inr ⟨passes, gone⟩
  · exact .inl (others name same)

end Thinning

section One

theorem thinned_entered : Thinned world nowMs store (store.entered transfer) :=
  ⟨rfl, fun _ => .inl rfl⟩

/-- Of a record that counts, only its list tells whether its turn passes. -/
theorem turn_whole (read : store.readsMeta world transfer = .whole record)
    (unexpired : ¬ kSnapshotTransferTtlMs < nowMs - record.createdMs) (sent : record.metaSent = true) :
    store.turn world nowMs transfer =
      match record.nextChunks with
      | [] => .passes
      | index :: _ => if (store.readsChunk world transfer index).isSome then .sends else .blocks := by
  rw [SnapshotStore.turn, read]
  dsimp only
  rw [if_neg unexpired, if_pos sent]

theorem pumpTransfer_passes (passes : store.turn world nowMs transfer = .passes) :
    ∃ later, (pumpTransfer library sender nowMs transfer progressed).runIn
        (SnapshotStore.inWorld world) store = (.goOn progressed, later) ∧
      Thinned world nowMs store later := by
  rw [runIn_pumpTransfer]
  have still := (@thinned_entered nowMs world store transfer).turn transfer |>.trans passes
  cases read : store.readsMeta world transfer with
  | missing => exact ⟨_, rfl, thinned_entered⟩
  | torn => exact ⟨_, rfl, thinned_entered⟩
  | whole record =>
      dsimp only
      rw [pumpRecord]
      by_cases expired : kSnapshotTransferTtlMs < nowMs - record.createdMs
      · obtain ⟨moved, later, run, thinned⟩ := @thinned_move nowMs world (store.entered transfer)
          transfer .expired nofun still
        rw [if_pos expired, Thread.runIn_bind, run]
        exact ⟨later, rfl, thinned_entered.trans thinned⟩
      · rw [if_neg expired]
        cases sent : record.metaSent with
        | false =>
            rw [SnapshotStore.turn, read] at passes
            dsimp only at passes
            rw [if_neg expired, sent] at passes
            cases passes
        | true =>
            have turn := passes.symm.trans (turn_whole read expired sent)
            cases next : record.nextChunks with
            | cons index more =>
                rw [next] at turn
                dsimp only at turn
                cases there : (store.readsChunk world transfer index).isSome <;>
                  rw [there] at turn <;> cases turn
            | nil =>
                obtain ⟨moved, later, run, thinned⟩ := @thinned_move nowMs world
                  (store.entered transfer) transfer .done nofun still
                refine ⟨later, ?_, thinned_entered.trans thinned⟩
                rw [pumpMeta_sent sent, Thread.pure_bind]
                dsimp only
                rw [pumpChunks_idle next, Thread.pure_bind]
                dsimp only
                rw [pumpEnd, if_pos next, Thread.runIn_bind, run]
                rfl

theorem pumpTransfer_blocks (blocks : store.turn world nowMs transfer = .blocks) :
    ∃ result, (pumpTransfer library sender nowMs transfer progressed).runIn
        (SnapshotStore.inWorld world) store = (.stop result, store.entered transfer) := by
  rw [runIn_pumpTransfer]
  rw [SnapshotStore.turn] at blocks
  cases read : store.readsMeta world transfer with
  | missing => rw [read] at blocks; cases blocks
  | torn => rw [read] at blocks; cases blocks
  | whole record =>
      rw [read] at blocks
      dsimp only at blocks ⊢
      by_cases expired : kSnapshotTransferTtlMs < nowMs - record.createdMs
      · rw [if_pos expired] at blocks
        cases blocks
      · rw [if_neg expired] at blocks
        cases sent : record.metaSent with
        | false => rw [sent] at blocks; cases blocks
        | true =>
            rw [if_pos sent] at blocks
            cases next : record.nextChunks with
            | nil => rw [next] at blocks; cases blocks
            | cons index more =>
                rw [next] at blocks
                dsimp only at blocks
                cases there : store.readsChunk world transfer index with
                | some data => rw [there] at blocks; cases blocks
                | none =>
                    have chunk : (store.entered transfer).readsChunk world transfer index = none :=
                      (congrFun (readsChunk_entered transfer) index).trans there
                    have stops : (pumpChunks library sender nowMs transfer kSnapshotChunksPerPump
                        record progressed).runIn (SnapshotStore.inWorld world)
                          (store.entered transfer) =
                        (.stop ⟨progressed, "chunk missing: " ++ chunkName index⟩,
                          store.entered transfer) := by
                      rw [kSnapshotChunksPerPump, pumpChunks, next]
                      dsimp only
                      rw [Thread.runIn_bind, runIn_readChunk]
                      dsimp only
                      rw [chunk]
                      rfl
                    refine ⟨⟨progressed, "chunk missing: " ++ chunkName index⟩, ?_⟩
                    rw [pumpRecord, if_neg expired, pumpMeta_sent sent, Thread.pure_bind]
                    dsimp only
                    rw [Thread.runIn_bind, stops]
                    rfl

/-- One publish is in the log of what comes behind it. -/
theorem grows_bind {α β : Type} {thread : SnapshotThread α} {next : α → SnapshotThread β}
    (grows : store.log.length < (thread.runIn (SnapshotStore.inWorld world) store).2.log.length) :
    store.log.length < ((thread >>= next).runIn (SnapshotStore.inWorld world) store).2.log.length := by
  rw [Thread.runIn_bind]
  exact lt_of_lt_of_le grows (log_runIn _ _).length_le

theorem publish_grows (works : ∀ log message, world log (.publish message) = .succeed)
    (message : SnapshotMessage) :
    store.log.length <
      ((publish message).runIn (SnapshotStore.inWorld world) store).2.log.length := by
  rw [runIn_publish, if_pos (works _ _)]
  dsimp only
  rw [SnapshotStore.logged, List.length_append]
  exact Nat.lt_succ_self _

theorem pumpTransfer_sends (works : ∀ log message, world log (.publish message) = .succeed)
    (sends : store.turn world nowMs transfer = .sends) :
    store.log.length < ((pumpTransfer library sender nowMs transfer progressed).runIn
      (SnapshotStore.inWorld world) store).2.log.length := by
  rw [runIn_pumpTransfer]
  change (store.entered transfer).log.length < _
  rw [SnapshotStore.turn] at sends
  cases read : store.readsMeta world transfer with
  | missing => rw [read] at sends; cases sends
  | torn => rw [read] at sends; cases sends
  | whole record =>
      rw [read] at sends
      dsimp only at sends ⊢
      by_cases expired : kSnapshotTransferTtlMs < nowMs - record.createdMs
      · rw [if_pos expired] at sends
        cases sends
      · rw [if_neg expired] at sends
        rw [pumpRecord, if_neg expired]
        cases sent : record.metaSent with
        | false =>
            apply grows_bind
            rw [pumpMeta, if_neg (by rw [sent]; exact Bool.false_ne_true)]
            exact grows_bind (publish_grows works _)
        | true =>
            rw [if_pos sent] at sends
            rw [pumpMeta_sent sent, Thread.pure_bind]
            dsimp only
            apply grows_bind
            cases next : record.nextChunks with
            | nil => rw [next] at sends; cases sends
            | cons index more =>
                rw [next] at sends
                dsimp only at sends
                cases there : store.readsChunk world transfer index with
                | none => rw [there] at sends; cases sends
                | some data =>
                    have chunk := (congrFun (readsChunk_entered transfer) index).trans there
                    rw [kSnapshotChunksPerPump, pumpChunks, next]
                    dsimp only
                    rw [Thread.runIn_bind, runIn_readChunk]
                    dsimp only
                    rw [chunk]
                    exact grows_bind (publish_grows works _)

end One

section All

variable {names : List String}

theorem Thinned.firstActive (thinned : Thinned world nowMs store later) (names : List String) :
    later.firstActive world nowMs names = store.firstActive world nowMs names := by
  have turns : later.turn world nowMs = store.turn world nowMs := funext thinned.turn
  rw [SnapshotStore.firstActive, SnapshotStore.firstActive, turns]

theorem firstActive_cons (name : String) :
    store.firstActive world nowMs (name :: names) =
      if store.turn world nowMs name = .passes then store.firstActive world nowMs names
      else some name := by
  rw [SnapshotStore.firstActive, List.find?_cons]
  cases store.turn world nowMs name <;> rfl

/-- While all pass, and up to a transfer that blocks, nothing is published. -/
theorem pumpTransfers_quiet (quiet : ∀ name, store.firstActive world nowMs names = some name →
      store.turn world nowMs name = .blocks) :
    Thinned world nowMs store ((pumpTransfers library sender nowMs names progressed).runIn
      (SnapshotStore.inWorld world) store).2 := by
  induction names generalizing store progressed with
  | nil => exact .refl store
  | cons transfer names ih =>
      rw [pumpTransfers, Thread.runIn_bind]
      cases turn : store.turn world nowMs transfer with
      | passes =>
          obtain ⟨later, run, thinned⟩ := @pumpTransfer_passes library sender nowMs world store
            transfer progressed turn
          rw [run]
          apply thinned.trans
          apply ih
          intro name first
          rw [thinned.turn]
          apply quiet
          rw [firstActive_cons, if_pos turn, ← thinned.firstActive]
          exact first
      | blocks =>
          obtain ⟨result, run⟩ := @pumpTransfer_blocks library sender nowMs world store transfer
            progressed turn
          rw [run]
          exact thinned_entered
      | sends =>
          have first := quiet transfer (by rw [firstActive_cons, if_neg (turn ▸ nofun)])
          exact absurd (turn.symm.trans first) nofun

/-- The first transfer that does not pass is reached. -/
theorem pumpTransfers_sends (works : ∀ log message, world log (.publish message) = .succeed)
    {name : String} (first : store.firstActive world nowMs names = some name)
    (sends : store.turn world nowMs name = .sends) :
    store.log.length < ((pumpTransfers library sender nowMs names progressed).runIn
      (SnapshotStore.inWorld world) store).2.log.length := by
  induction names generalizing store progressed with
  | nil => cases first
  | cons transfer names ih =>
      rw [pumpTransfers]
      rw [firstActive_cons] at first
      by_cases passes : store.turn world nowMs transfer = .passes
      · obtain ⟨later, run, thinned⟩ := @pumpTransfer_passes library sender nowMs world store
          transfer progressed passes
        rw [if_pos passes] at first
        rw [Thread.runIn_bind, run, ← thinned.log]
        exact ih ((thinned.firstActive names).trans first) ((thinned.turn name).trans sends)
      · rw [if_neg passes] at first
        obtain rfl := Option.some.inj first
        exact grows_bind (pumpTransfer_sends works sends)

theorem pump_quiet (stuck : store.Stuck world nowMs) :
    Thinned world nowMs store (pumpCall library sender nowMs world store).2 := by
  rw [pumpCall, pump, Thread.runIn_bind, runIn_listPending]
  cases stuck with
  | inl unlisted =>
      rw [if_neg unlisted]
      exact .refl store
  | inr blocked =>
      obtain ⟨name, first, blocks⟩ := blocked
      by_cases listed : world store.log .listPending = .succeed
      · rw [if_pos listed]
        apply pumpTransfers_quiet
        intro other same
        rw [first] at same
        exact Option.some.inj same ▸ blocks
      · rw [if_neg listed]
        exact .refl store

end All

section Samples

/-- A transfer with one chunk, whose meta message is sent. -/
def halfSent (transfer : String) : SnapshotMeta where
  transferId := transfer
  filename := "attack.pcap"
  totalSize := 1
  totalChunks := 1
  sha256 := "6e340b9cffb37a989ca544e6bb780a2c78901d3fb33738768511a30617afa01d"
  logTime := "1970-01-01T00:00:00.000+00:00"
  eventId := ""
  ecuCode := ""
  remark := ""
  createdMs := 0
  replay := false
  metaSent := true
  nextChunks := [0]

/-- The chunk file of the first transfer is missing, that of the second one is there. -/
def damagedStore : SnapshotStore :=
  (SnapshotStore.empty.setDir .pending "a" ⟨.whole (halfSent "a"), .missing, []⟩).setDir .pending
    "b" ⟨.whole (halfSent "b"), .missing, [[0]]⟩

theorem damagedStore_waits :
    damagedStore.Waits (fun _ _ => .succeed) 0 "b" (halfSent "b") where
  read := by decide
  formed := by decide
  unexpired := by decide
  present index small := by
    obtain rfl := Nat.lt_one_iff.1 small
    decide
  unsent := by decide

theorem damagedStore_stuck : damagedStore.Stuck (fun _ _ => .succeed) 0 :=
  .inr ⟨"a", by decide, by decide⟩

end Samples

end Idsm.Managerd
