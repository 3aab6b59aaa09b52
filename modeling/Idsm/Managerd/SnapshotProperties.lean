import Idsm.Managerd.SnapshotSystem

/-! What the pump and the acknowledgements keep of a transfer when neither enters a directory
that the other works in. -/

set_option autoImplicit false

namespace Idsm.Managerd

open Idsm.Foundation
open Idsm.Json (Value)

theorem Side.other_ne (side : Side) : side.other ≠ side := by
  cases side with
  | mainLoop => exact nofun
  | network => exact nofun

namespace SnapshotStore

variable {store now later : SnapshotStore} {place other : Place} {transfer name : String}
  {dir : TransferDir} {side : Side}

theorem dir?_setDir : (store.setDir place transfer dir).dir? other name =
    if other = place ∧ transfer = name then some dir else store.dir? other name := by
  unfold dir? setDir
  by_cases same : other = place
  · rw [same]
    dsimp only
    rw [Function.update_self, OrderedMap.find?_insert]
    by_cases equal : transfer = name
    · rw [if_pos equal, if_pos ⟨rfl, equal⟩]
    · rw [if_neg equal, if_neg fun both => equal both.2]
  · dsimp only
    rw [Function.update_of_ne same, if_neg fun both => same both.1]

theorem dir?_eraseDir : (store.eraseDir place transfer).dir? other name =
    if other = place ∧ transfer = name then none else store.dir? other name := by
  unfold dir? eraseDir
  by_cases same : other = place
  · rw [same]
    dsimp only
    rw [Function.update_self, OrderedMap.find?_erase]
    by_cases equal : transfer = name
    · rw [if_pos equal, if_pos ⟨rfl, equal⟩]
    · rw [if_neg equal, if_neg fun both => equal both.2]
  · dsimp only
    rw [Function.update_of_ne same, if_neg fun both => same both.1]

/-- The message carries the chunk that is asked for, as it was staged. -/
def Delivers (bytes : List UInt8) (ask : Ask) : SnapshotMessage → Prop
  | .snapshot _ _ => False
  | .chunk _ envelope => envelope.transferId = ask.transfer ∧ envelope.chunkIndex = ask.index ∧
      (splitChunks bytes.length bytes)[ask.index]?.map base64Encode = some envelope.data

instance (bytes : List UInt8) (ask : Ask) : DecidablePred (Delivers bytes ask) := fun message =>
  match message with
  | .snapshot _ _ => inferInstanceAs (Decidable False)
  | .chunk _ envelope => inferInstanceAs (Decidable (envelope.transferId = ask.transfer ∧ _ ∧ _))

/-- Published since it was asked for. -/
def Delivered (store : SnapshotStore) (ask : Ask) : Prop :=
  match store.staged.find? ask.transfer with
  | none => False
  | some bytes => ∃ message ∈ store.log.drop ask.since, Delivers bytes ask message

instance (store : SnapshotStore) (ask : Ask) : Decidable (store.Delivered ask) :=
  match staged : store.staged.find? ask.transfer with
  | none => .isFalse (by simp [Delivered, staged])
  | some bytes =>
      decidable_of_iff (∃ message ∈ store.log.drop ask.since, Delivers bytes ask message)
        (by simp [Delivered, staged])

theorem delivered_iff {ask : Ask} : store.Delivered ask ↔
    ∃ bytes, store.staged.find? ask.transfer = some bytes ∧
      ∃ message ∈ store.log.drop ask.since, Delivers bytes ask message := by
  unfold Delivered
  cases store.staged.find? ask.transfer with
  | none => simp
  | some bytes => simp

/-- Nothing about a transfer has changed but that more was published. -/
structure Frame (store now : SnapshotStore) (transfer : String) : Prop where
  dirs : ∀ place, now.dir? place transfer = store.dir? place transfer
  staged : now.staged.find? transfer = store.staged.find? transfer
  asks : ∀ ask : Ask, ask.transfer = transfer → (ask ∈ now.asks ↔ ask ∈ store.asks)
  log : ∃ more, now.log = store.log ++ more

theorem Frame.refl (store : SnapshotStore) (transfer : String) : Frame store store transfer :=
  ⟨fun _ => rfl, rfl, fun _ _ => Iff.rfl, [], (List.append_nil _).symm⟩

theorem Frame.trans (first : Frame store now transfer) (second : Frame now later transfer) :
    Frame store later transfer := by
  obtain ⟨more, log⟩ := first.log
  obtain ⟨others, grown⟩ := second.log
  refine ⟨fun place => (second.dirs place).trans (first.dirs place),
    second.staged.trans first.staged,
    fun ask same => (second.asks ask same).trans (first.asks ask same), more ++ others, ?_⟩
  rw [grown, log, List.append_assoc]

theorem drop_append_subset {α : Type} {log more : List α} {since : Nat} :
    log.drop since ⊆ (log ++ more).drop since := by
  intro message member
  rw [List.drop_append]
  exact List.mem_append_left _ member

theorem Delivered.frame {ask : Ask} (delivered : store.Delivered ask)
    (frame : Frame store now ask.transfer) : now.Delivered ask := by
  obtain ⟨bytes, staged, message, member, delivers⟩ := delivered_iff.1 delivered
  obtain ⟨more, log⟩ := frame.log
  refine delivered_iff.2 ⟨bytes, frame.staged.trans staged, message, ?_, delivers⟩
  rw [log]
  exact drop_append_subset member

/-- The chunks that some asks wait for are in a record's list. -/
def Waiting (counts : Ask → Prop) (store : SnapshotStore) (transfer : String)
    (indices : List Nat) : Prop :=
  ∀ ask ∈ store.asks, counts ask → ask.transfer = transfer → store.Delivered ask ∨
    ask.index ∈ indices

theorem Waiting.frame {counts : Ask → Prop} {indices : List Nat}
    (waiting : Waiting counts store transfer indices) (frame : Frame store now transfer) :
    Waiting counts now transfer indices := by
  intro ask member counted same
  rcases waiting ask ((frame.asks ask same).mp member) counted same with delivered | there
  · exact .inl (delivered.frame (same ▸ frame))
  · exact .inr there

/-- The record describes the staged file. -/
structure Describes (transfer : String) (bytes : List UInt8) (record : SnapshotMeta) : Prop where
  named : record.transferId = transfer
  total : record.totalChunks = (splitChunks bytes.length bytes).length

/-- A name without a staged file, or a staged file in one of the directories. -/
inductive TransferState (counts : Ask → Prop) (store : SnapshotStore) (transfer : String) :
    Prop where
  | unstaged (unstaged : store.staged.find? transfer = none)
      (elsewhere : ∀ place, place ≠ .pending → store.dir? place transfer = none)
      (noRecord : ∀ dir, store.dir? .pending transfer = some dir → dir.metaJson = .missing)
      (silent : ∀ ask ∈ store.asks, ask.transfer ≠ transfer)
  | staged (bytes : List UInt8) (place : Place) (dir : TransferDir) (record : SnapshotMeta)
      (staged : store.staged.find? transfer = some bytes)
      (here : store.dir? place transfer = some dir)
      (elsewhere : ∀ other, other ≠ place → store.dir? other transfer = none)
      (readable : dir.metaJson = .whole record) (describes : Describes transfer bytes record)
      (chunks : dir.chunks = splitChunks bytes.length bytes)
      (waiting : place = .pending → Waiting counts store transfer record.nextChunks)
      (finished : place = .done → Waiting counts store transfer [])

theorem TransferState.frame {counts : Ask → Prop} (state : TransferState counts store transfer)
    (frame : Frame store now transfer) : TransferState counts now transfer := by
  cases state with
  | unstaged unstaged elsewhere noRecord silent =>
      refine .unstaged (frame.staged.trans unstaged)
        (fun place other => (frame.dirs place).trans (elsewhere place other))
        (fun dir here => noRecord dir ((frame.dirs .pending).symm.trans here)) ?_
      intro ask member same
      exact silent ask ((frame.asks ask same).mp member) same
  | staged bytes place dir record staged here elsewhere readable describes chunks waiting finished =>
      exact .staged bytes place dir record (frame.staged.trans staged)
        ((frame.dirs place).trans here)
        (fun other apart => (frame.dirs other).trans (elsewhere other apart)) readable describes
        chunks (fun pending => (waiting pending).frame frame)
        (fun done => (finished done).frame frame)

/-- The two threads work in different transfers, each transfer is as it should be, asks are as
old as what was published before them, and every chunk was asked for when it was staged. -/
structure Sound (counts : Ask → Prop) (store : SnapshotStore) : Prop where
  apart : ∀ transfer, store.inUse .mainLoop = some transfer →
    store.inUse .network ≠ some transfer
  transfers : ∀ transfer, TransferState counts store transfer
  since : ∀ ask ∈ store.asks, ask.since ≤ store.log.length
  first : ∀ transfer bytes, store.staged.find? transfer = some bytes →
    ∀ index < (splitChunks bytes.length bytes).length, ∃ ask ∈ store.asks,
      ask.transfer = transfer ∧ ask.index = index ∧ ask.first = true

theorem Sound.disjoint {counts : Ask → Prop} (sound : Sound counts store)
    (mine : store.inUse side = some transfer) : store.inUse side.other ≠ some transfer := by
  cases side with
  | mainLoop => exact sound.apart transfer mine
  | network => exact fun theirs => sound.apart transfer theirs mine

/-- While others act: a staged transfer that a thread works in is left alone. -/
structure Rely (side : Side) (store now : SnapshotStore) : Prop where
  inUse : now.inUse side = store.inUse side
  frame : ∀ transfer, store.inUse side = some transfer →
    (store.staged.find? transfer).isSome = true → Frame store now transfer

/-- A thread changes nothing but the transfer that it works in. -/
structure Guarantee (side : Side) (store later : SnapshotStore) : Prop where
  inUse : later.inUse side.other = store.inUse side.other
  frame : ∀ transfer, store.inUse side ≠ some transfer → Frame store later transfer

theorem Rely.refl (store : SnapshotStore) : Rely side store store :=
  ⟨rfl, fun _ _ _ => .refl _ _⟩

theorem Rely.trans (first : Rely side store now) (second : Rely side now later) :
    Rely side store later := by
  refine ⟨second.inUse.trans first.inUse, fun transfer mine staged => ?_⟩
  have frame := first.frame transfer mine staged
  exact frame.trans (second.frame transfer (first.inUse.trans mine)
    (by rw [frame.staged]; exact staged))

theorem Guarantee.refl (store : SnapshotStore) : Guarantee side store store :=
  ⟨rfl, fun _ _ => .refl _ _⟩

/-- What one thread guarantees, the other one relies on. -/
theorem Guarantee.rely {counts : Ask → Prop} (sound : Sound counts store)
    (guarantee : Guarantee side store later) : Rely side.other store later := by
  refine ⟨guarantee.inUse, fun transfer theirs _ => guarantee.frame transfer fun mine => ?_⟩
  exact sound.disjoint mine theirs

end SnapshotStore

section Settings

open SnapshotStore

variable {counts : Ask → Prop} {store now later : SnapshotStore} {side : Side}
  {transfer : String} {bytes : List UInt8} {record : SnapshotMeta} {named : List Nat}

/-- A thread enters only a transfer that the other one is not in. An acknowledgement that is
about to be saved names every chunk that is still asked for. -/
def Admitted (counts : Ask → Prop) (side : Side) (named : List Nat) (store : SnapshotStore) :
    SnapshotAct → Prop
  | .enter transfer => store.inUse side.other ≠ some transfer
  | .writeTmp transfer _ => side = .network → Waiting counts store transfer named
  | _ => True

instance [DecidablePred counts] : DecidablePred (Admitted counts side named store) := fun action =>
  match action with
  | .enter transfer => inferInstanceAs (Decidable (store.inUse side.other ≠ some transfer))
  | .writeTmp transfer _ =>
      inferInstanceAs (Decidable (side = .network → ∀ ask ∈ store.asks, counts ask →
        ask.transfer = transfer → store.Delivered ask ∨ ask.index ∈ named))
  | .isDirectory _ _ | .listPending | .makeDirs _ | .writeChunk _ _ | .readMeta _
  | .renameTmp _ | .renameDir _ _ _ | .readChunk _ _ | .publish _ =>
      inferInstanceAs (Decidable True)

def snapshotSetting (counts : Ask → Prop) (side : Side) (named : List Nat) :
    Thread.Setting SnapshotStore SnapshotAct SnapshotAct.Answer where
  performs store action answer later :=
    ∃ choice, store.performs side action choice = (answer, later)
  allowed := Admitted counts side named
  invariant := Sound counts
  rely := Rely side
  guarantee := Guarantee side
  refl := Rely.refl
  trans := Rely.trans

/-- A change of the transfer that the thread works in. -/
theorem changed (sound : Sound counts now) (mine : now.inUse side = some transfer)
    (inUse : later.inUse = now.inUse) (log : later.log = now.log) (asks : later.asks = now.asks)
    (others : ∀ other, other ≠ transfer → ∀ place, later.dir? place other = now.dir? place other)
    (staged : later.staged = now.staged) (state : TransferState counts later transfer) :
    Sound counts later ∧ Guarantee side now later := by
  have frame : ∀ other, other ≠ transfer → Frame now later other := fun other apart =>
    ⟨others other apart, by rw [staged], fun _ _ => by rw [asks],
      [], by rw [log, List.append_nil]⟩
  refine ⟨⟨?_, fun other => ?_, ?_, ?_⟩, by rw [inUse], fun other apart => ?_⟩
  · rw [inUse]
    exact sound.apart
  · by_cases same : other = transfer
    · exact same ▸ state
    · exact (sound.transfers other).frame (frame other same)
  · rw [asks, log]
    exact sound.since
  · rw [staged, asks]
    exact sound.first
  · refine frame other fun same => apart ?_
    rw [mine, same]

/-- Nothing has happened. -/
theorem unchanged (sound : Sound counts now) :
    Sound counts now ∧ Guarantee side now now := ⟨sound, .refl _⟩

/-- More has been published. -/
theorem published (sound : Sound counts now) (message : SnapshotMessage) :
    Sound counts { now with log := now.log ++ [message] } ∧
      Guarantee side now { now with log := now.log ++ [message] } := by
  have frame : ∀ transfer, Frame now { now with log := now.log ++ [message] } transfer :=
    fun _ => ⟨fun _ => rfl, rfl, fun _ _ => Iff.rfl, [message], rfl⟩
  refine ⟨⟨sound.apart, fun transfer => (sound.transfers transfer).frame (frame transfer), ?_,
    sound.first⟩, rfl, fun transfer _ => frame transfer⟩
  intro ask member
  have before := sound.since ask member
  rw [List.length_append]
  omega

/-- The thread is in a staged transfer that waits in `pending`. -/
structure Inside (side : Side) (transfer : String) (bytes : List UInt8) (store : SnapshotStore) :
    Prop where
  mine : store.inUse side = some transfer
  staged : store.staged.find? transfer = some bytes
  pending : (store.dir? .pending transfer).isSome = true

theorem Inside.frame (inside : Inside side transfer bytes store) (rely : Rely side store now) :
    Frame store now transfer :=
  rely.frame transfer inside.mine (by rw [inside.staged]; rfl)

theorem Inside.stable (inside : Inside side transfer bytes store) (rely : Rely side store now) :
    Inside side transfer bytes now := by
  have frame := inside.frame rely
  exact ⟨rely.inUse.trans inside.mine, frame.staged.trans inside.staged,
    by rw [frame.dirs]; exact inside.pending⟩

/-- Its directory, with a record that keeps what is asked for. -/
theorem Inside.state (inside : Inside side transfer bytes now) (sound : Sound counts now) :
    ∃ dir record, now.dir? .pending transfer = some dir ∧ dir.metaJson = .whole record ∧
      Describes transfer bytes record ∧ dir.chunks = splitChunks bytes.length bytes ∧
      Waiting counts now transfer record.nextChunks ∧
      ∀ other, other ≠ .pending → now.dir? other transfer = none := by
  obtain ⟨dir, pending⟩ := Option.isSome_iff_exists.mp inside.pending
  cases sound.transfers transfer with
  | unstaged unstaged _ _ _ =>
      rw [inside.staged] at unstaged
      cases unstaged
  | staged others place stored record staged here elsewhere readable describes chunks waiting _ =>
      obtain rfl := Option.some.inj (inside.staged.symm.trans staged)
      have same : place = .pending := by
        by_contra apart
        rw [elsewhere .pending (Ne.symm apart)] at pending
        cases pending
      subst same
      exact ⟨stored, record, here, readable, describes, chunks, waiting rfl, elsewhere⟩

/-- A directory of its own in `pending` with another record. -/
theorem Inside.setDir (inside : Inside side transfer bytes now) (sound : Sound counts now)
    {dir : TransferDir} (readable : dir.metaJson = .whole record)
    (describes : Describes transfer bytes record)
    (chunks : dir.chunks = splitChunks bytes.length bytes)
    (waiting : Waiting counts now transfer record.nextChunks) :
    (Sound counts (now.setDir .pending transfer dir) ∧
      Guarantee side now (now.setDir .pending transfer dir)) ∧
      Inside side transfer bytes (now.setDir .pending transfer dir) := by
  obtain ⟨_, _, _, _, _, _, _, elsewhere⟩ := inside.state sound
  have here : (now.setDir .pending transfer dir).dir? .pending transfer = some dir := by
    rw [dir?_setDir, if_pos ⟨rfl, rfl⟩]
  refine ⟨changed sound inside.mine rfl rfl rfl (fun other apart place => ?_) rfl ?_,
    inside.mine, inside.staged, by rw [here]; rfl⟩
  · rw [dir?_setDir, if_neg fun both => apart both.2.symm]
  · refine .staged bytes .pending dir record inside.staged here (fun other apart => ?_) readable
      describes chunks (fun _ => waiting) nofun
    rw [dir?_setDir, if_neg fun both => apart both.1]
    exact elsewhere other apart

/-- What is known of the transfer that a thread works in stays known. -/
theorem stable_inside {known : SnapshotStore → Prop}
    (keeps : ∀ {store now}, Frame store now transfer → known store → known now) :
    (snapshotSetting counts side named).Stable fun store =>
      Inside side transfer bytes store ∧ known store := by
  intro store now rely _ given
  exact ⟨given.1.stable rely, keeps (given.1.frame rely) given.2⟩

theorem stable_when {ok : Prop} {known : SnapshotStore → Prop}
    (keeps : ∀ {store now}, Frame store now transfer → known store → known now) :
    (snapshotSetting counts side named).Stable fun store =>
      Inside side transfer bytes store ∧ (ok → known store) :=
  stable_inside fun frame given held => keeps frame (given held)

/-- The file has a record, once it is in place or still beside its place. -/
def Saved (counts : Ask → Prop) (transfer : String) (record : SnapshotMeta)
    (file : TransferDir → MetaFile) (store : SnapshotStore) : Prop :=
  Waiting counts store transfer record.nextChunks ∧
    ∃ dir, store.dir? .pending transfer = some dir ∧ file dir = .whole record

theorem Saved.frame {file : TransferDir → MetaFile}
    (saved : Saved counts transfer record file store) (frame : Frame store now transfer) :
    Saved counts transfer record file now := by
  obtain ⟨waiting, dir, here, holds⟩ := saved
  exact ⟨waiting.frame frame, dir, (frame.dirs .pending).trans here, holds⟩

theorem writeTmp_safe (inside : Inside side transfer bytes store)
    (keeps : ∀ {now}, Frame store now transfer →
      Admitted counts side named now (.writeTmp transfer record) →
        Waiting counts now transfer record.nextChunks) :
    (writeTmp transfer record).Safe (snapshotSetting counts side named)
      (fun written now => Inside side transfer bytes now ∧
        (written = true → Saved counts transfer record TransferDir.metaTmp now)) store := by
  refine Thread.Safe.perform
    (stable_inside fun frame (before : Frame store _ transfer) => before.trans frame)
    (fun _ => stable_when fun frame saved => Saved.frame saved frame)
    ⟨inside, .refl _ _⟩ ?_
  rintro now sound ⟨inside, frame⟩ allowed written later ⟨choice, performed⟩
  obtain ⟨dir, old, here, readable, describes, chunks, waiting, _⟩ := inside.state sound
  cases choice with
  | succeed =>
      rw [performs, here] at performed
      obtain ⟨rfl, rfl⟩ := Prod.mk.inj performed
      obtain ⟨kept, inside⟩ := @Inside.setDir counts _ _ _ _ _ inside sound
        { dir with metaTmp := .whole record } readable describes chunks waiting
      have keep := keeps frame allowed
      refine ⟨kept, inside, fun _ => ⟨keep, { dir with metaTmp := .whole record }, ?_, rfl⟩⟩
      rw [dir?_setDir, if_pos ⟨rfl, rfl⟩]
  | fail torn =>
      cases torn with
      | false =>
          rw [performs] at performed
          obtain ⟨rfl, rfl⟩ := Prod.mk.inj performed
          exact ⟨unchanged sound, inside, nofun⟩
      | true =>
          rw [performs, here] at performed
          obtain ⟨rfl, rfl⟩ := Prod.mk.inj performed
          obtain ⟨kept, inside⟩ := @Inside.setDir counts _ _ _ _ _ inside sound
            { dir with metaTmp := .torn } readable describes chunks waiting
          exact ⟨kept, inside, nofun⟩

theorem renameTmp_safe (describes : Describes transfer bytes record)
    (inside : Inside side transfer bytes store)
    (saved : Saved counts transfer record TransferDir.metaTmp store) :
    (renameTmp transfer).Safe (snapshotSetting counts side named)
      (fun renamed now => Inside side transfer bytes now ∧
        (renamed = true → Saved counts transfer record TransferDir.metaJson now)) store := by
  refine Thread.Safe.perform (stable_inside fun frame saved => Saved.frame saved frame)
    (fun _ => stable_when fun frame saved => Saved.frame saved frame)
    ⟨inside, saved⟩ ?_
  rintro now sound ⟨inside, waiting, dir, here, tmp⟩ _ renamed later ⟨choice, performed⟩
  obtain ⟨stored, _, found, _, _, chunks, _, _⟩ := inside.state sound
  obtain rfl := Option.some.inj (here.symm.trans found)
  cases choice with
  | succeed =>
      rw [performs, here] at performed
      dsimp only at performed
      rw [tmp, if_neg nofun] at performed
      obtain ⟨rfl, rfl⟩ := Prod.mk.inj performed
      obtain ⟨kept, inside⟩ := @Inside.setDir counts _ _ _ _ _ inside sound
        { dir with metaJson := .whole record, metaTmp := .missing } rfl describes chunks waiting
      refine ⟨kept, inside, fun _ => ⟨waiting,
        { dir with metaJson := .whole record, metaTmp := .missing }, ?_, rfl⟩⟩
      rw [dir?_setDir, if_pos ⟨rfl, rfl⟩]
  | fail torn =>
      rw [performs] at performed
      obtain ⟨rfl, rfl⟩ := Prod.mk.inj performed
      exact ⟨unchanged sound, inside, nofun⟩

/-- A record that keeps what is asked for is saved, or the one before it stays. -/
theorem saveMeta_safe (sound : Sound counts store) (describes : Describes transfer bytes record)
    (inside : Inside side transfer bytes store)
    (keeps : ∀ {now}, Frame store now transfer →
      Admitted counts side named now (.writeTmp transfer record) →
        Waiting counts now transfer record.nextChunks) :
    (saveMeta transfer record).Safe (snapshotSetting counts side named)
      (fun result now => Inside side transfer bytes now ∧
        (result = none → Saved counts transfer record TransferDir.metaJson now)) store := by
  have stable : ∀ result : Option String, (snapshotSetting counts side named).Stable fun now =>
      Inside side transfer bytes now ∧
        (result = none → Saved counts transfer record TransferDir.metaJson now) :=
    fun _ => stable_when fun frame saved => Saved.frame saved frame
  refine Thread.Safe.bind _ (writeTmp_safe inside keeps) sound ?_
  rintro written now sound ⟨inside, saved⟩
  cases written with
  | false => exact Thread.Safe.pure (stable _) ⟨inside, nofun⟩
  | true =>
      refine Thread.Safe.bind _ (renameTmp_safe describes inside (saved rfl)) sound ?_
      rintro renamed now sound ⟨inside, saved⟩
      cases renamed with
      | false => exact Thread.Safe.pure (stable _) ⟨inside, nofun⟩
      | true =>
          exact Thread.Safe.pure (stable _) ⟨inside, fun _ => saved rfl⟩

theorem stable_mine : (snapshotSetting counts side named).Stable fun store =>
    store.inUse side = some transfer :=
  fun _ _ rely _ mine => rely.inUse.trans mine

theorem stable_true : (snapshotSetting counts side named).Stable fun _ => True :=
  fun _ _ _ _ _ => trivial

theorem enter_safe :
    (enter transfer).Safe (snapshotSetting counts side named)
      (fun _ now => now.inUse side = some transfer) store := by
  refine Thread.Safe.perform stable_true (fun _ => stable_mine) trivial ?_
  rintro now sound _ allowed _ later ⟨choice, performed⟩
  rw [performs] at performed
  obtain ⟨_, rfl⟩ := Prod.mk.inj performed
  have frame : ∀ other, Frame now
      { now with inUse := Function.update now.inUse side (some transfer) } other :=
    fun other => ⟨fun _ => rfl, rfl, fun _ _ => Iff.rfl, [], (List.append_nil _).symm⟩
  have own : Function.update now.inUse side (some transfer) side = some transfer :=
    Function.update_self _ _ _
  have others : Function.update now.inUse side (some transfer) side.other =
      now.inUse side.other := Function.update_of_ne side.other_ne _ _
  refine ⟨⟨⟨?_, fun other => (sound.transfers other).frame (frame other), sound.since,
    sound.first⟩, others, fun other _ => frame other⟩, Function.update_self _ _ _⟩
  intro other mine theirs
  cases side with
  | mainLoop =>
      obtain rfl := Option.some.inj (own.symm.trans mine)
      exact allowed (others.symm.trans theirs)
  | network =>
      obtain rfl := Option.some.inj (own.symm.trans theirs)
      exact allowed (others.symm.trans mine)

/-- What a thread knows of a record: it describes the file and keeps what is asked for. -/
def Ready (counts : Ask → Prop) (transfer : String) (bytes : List UInt8) (record : SnapshotMeta)
    (store : SnapshotStore) : Prop :=
  Describes transfer bytes record ∧ Waiting counts store transfer record.nextChunks

theorem Ready.frame (ready : Ready counts transfer bytes record store)
    (frame : Frame store now transfer) : Ready counts transfer bytes record now :=
  ⟨ready.1, ready.2.frame frame⟩

/-- A record is there for a staged transfer only. -/
theorem readMeta_safe (mine : store.inUse side = some transfer) :
    (readMeta transfer).Safe (snapshotSetting counts side named)
      (fun file now => ∀ record, file = .whole record → ∃ bytes,
        Inside side transfer bytes now ∧ Ready counts transfer bytes record now) store := by
  refine Thread.Safe.perform stable_mine ?_ mine ?_
  · intro file store now rely _ known record whole
    obtain ⟨bytes, inside, ready⟩ := known record whole
    exact ⟨bytes, inside.stable rely, ready.frame (inside.frame rely)⟩
  · rintro now sound mine _ file later ⟨choice, performed⟩
    cases choice with
    | fail torn =>
        rw [performs] at performed
        obtain ⟨rfl, rfl⟩ := Prod.mk.inj performed
        exact ⟨unchanged sound, nofun⟩
    | succeed =>
        rw [performs] at performed
        obtain ⟨rfl, rfl⟩ := Prod.mk.inj performed
        refine ⟨unchanged sound, fun record whole => ?_⟩
        cases pending : now.dir? .pending transfer with
        | none =>
            rw [pending] at whole
            cases whole
        | some dir =>
            rw [pending] at whole
            change dir.metaJson = .whole record at whole
            cases sound.transfers transfer with
            | unstaged _ _ noRecord _ =>
                rw [noRecord dir pending] at whole
                cases whole
            | staged bytes place stored other staged here elsewhere readable describes chunks
                waiting _ =>
                have same : place = .pending := by
                  by_contra apart
                  rw [elsewhere .pending (Ne.symm apart)] at pending
                  cases pending
                subst same
                obtain rfl := Option.some.inj (here.symm.trans pending)
                obtain rfl := MetaFile.whole.inj (readable.symm.trans whole)
                exact ⟨bytes, ⟨mine, staged, by rw [here]; rfl⟩, describes, waiting rfl⟩

theorem publish_safe {message : SnapshotMessage} {known gained : SnapshotStore → Prop}
    (keeps : ∀ {store now}, Frame store now transfer → known store → known now)
    (holds : ∀ {store now}, Frame store now transfer → gained store → gained now)
    (inside : Inside side transfer bytes store) (given : known store)
    (gains : ∀ {now}, Sound counts now → Inside side transfer bytes now → known now →
      gained { now with log := now.log ++ [message] }) :
    (publish message).Safe (snapshotSetting counts side named)
      (fun sent now => Inside side transfer bytes now ∧ known now ∧ (sent = true → gained now))
      store := by
  refine Thread.Safe.perform (stable_inside keeps)
    (fun _ => stable_inside fun frame both => ⟨keeps frame both.1, fun sent => holds frame (both.2 sent)⟩)
    ⟨inside, given⟩ ?_
  rintro now sound ⟨inside, given⟩ _ sent later ⟨choice, performed⟩
  cases choice with
  | fail torn =>
      rw [performs] at performed
      obtain ⟨rfl, rfl⟩ := Prod.mk.inj performed
      exact ⟨unchanged sound, inside, given, nofun⟩
  | succeed =>
      rw [performs] at performed
      obtain ⟨rfl, rfl⟩ := Prod.mk.inj performed
      have frame : Frame now { now with log := now.log ++ [message] } transfer :=
        ⟨fun _ => rfl, rfl, fun _ _ => Iff.rfl, [message], rfl⟩
      exact ⟨published sound message, ⟨inside.mine, inside.staged, inside.pending⟩,
        keeps frame given, fun _ => gains sound inside given⟩

theorem readChunk_safe {index : Nat} (inside : Inside side transfer bytes store)
    (ready : Ready counts transfer bytes record store) :
    (readChunk transfer index).Safe (snapshotSetting counts side named)
      (fun found now => Inside side transfer bytes now ∧ Ready counts transfer bytes record now ∧
        ∀ data, found = some data → (splitChunks bytes.length bytes)[index]? = some data)
      store := by
  refine Thread.Safe.perform (stable_inside fun frame ready => Ready.frame ready frame)
    (fun _ => stable_inside fun frame both => ⟨Ready.frame both.1 frame, both.2⟩)
    ⟨inside, ready⟩ ?_
  rintro now sound ⟨inside, ready⟩ _ found later ⟨choice, performed⟩
  cases choice with
  | fail torn =>
      rw [performs] at performed
      obtain ⟨rfl, rfl⟩ := Prod.mk.inj performed
      exact ⟨unchanged sound, inside, ready, nofun⟩
  | succeed =>
      rw [performs] at performed
      obtain ⟨rfl, rfl⟩ := Prod.mk.inj performed
      refine ⟨unchanged sound, inside, ready, fun data here => ?_⟩
      obtain ⟨dir, _, pending, _, _, chunks, _, _⟩ := inside.state sound
      rw [pending] at here
      change dir.chunks[index]? = some data at here
      rwa [chunks] at here

/-- The directory of a staged transfer gets another place. -/
theorem moved {source target : Place} {dir : TransferDir} (sound : Sound counts now)
    (mine : now.inUse side = some transfer) (staged : now.staged.find? transfer = some bytes)
    (elsewhere : ∀ other, other ≠ source → now.dir? other transfer = none)
    (readable : dir.metaJson = .whole record) (describes : Describes transfer bytes record)
    (chunks : dir.chunks = splitChunks bytes.length bytes)
    (waiting : target = .pending → Waiting counts now transfer record.nextChunks)
    (finished : target = .done → Waiting counts now transfer []) :
    Sound counts ((now.eraseDir source transfer).setDir target transfer dir) ∧
      Guarantee side now ((now.eraseDir source transfer).setDir target transfer dir) := by
  refine changed sound mine rfl rfl rfl (fun other apart place => ?_) rfl ?_
  · rw [dir?_setDir, if_neg fun both => apart both.2.symm, dir?_eraseDir,
      if_neg fun both => apart both.2.symm]
  · refine .staged bytes target dir record staged (by rw [dir?_setDir, if_pos ⟨rfl, rfl⟩])
      (fun other apart => ?_) readable describes chunks waiting finished
    rw [dir?_setDir, if_neg fun both => apart both.1, dir?_eraseDir]
    by_cases left : other = source
    · rw [if_pos ⟨left, rfl⟩]
    · rw [if_neg fun both => left both.1]
      exact elsewhere other left

theorem renameDir_safe {target : Place} {known : SnapshotStore → Prop}
    (keeps : ∀ {store now}, Frame store now transfer → known store → known now)
    (inside : Inside side transfer bytes store) (given : known store)
    (stays : target ≠ .pending)
    (finished : ∀ {now}, known now → target = .done → Waiting counts now transfer []) :
    (renameDir transfer .pending target).Safe (snapshotSetting counts side named)
      (fun _ now => now.inUse side = some transfer) store := by
  refine Thread.Safe.perform (stable_inside keeps) (fun _ => stable_mine) ⟨inside, given⟩ ?_
  rintro now sound ⟨inside, given⟩ _ renamed later ⟨choice, performed⟩
  obtain ⟨dir, record, here, readable, describes, chunks, waiting, elsewhere⟩ := inside.state sound
  cases choice with
  | fail torn =>
      rw [performs] at performed
      obtain ⟨_, rfl⟩ := Prod.mk.inj performed
      exact ⟨unchanged sound, inside.mine⟩
  | succeed =>
      rw [performs, here, elsewhere target stays] at performed
      obtain ⟨_, rfl⟩ := Prod.mk.inj performed
      exact ⟨moved sound inside.mine inside.staged elsewhere readable describes chunks
        (fun pending => absurd pending stays) (finished given), inside.mine⟩

end Settings

section Pump

open SnapshotStore

variable {counts : Ask → Prop} {store now : SnapshotStore} {transfer : String}
  {bytes : List UInt8} {record : SnapshotMeta} {library : SnapshotLibrary}
  {sender : SnapshotSender} {nowMs : Int} {progressed : Bool}

abbrev pumpSetting (counts : Ask → Prop) :
    Thread.Setting SnapshotStore SnapshotAct SnapshotAct.Answer :=
  snapshotSetting counts .mainLoop []

/-- Of a part of the pump that goes on. -/
def Onward {α : Type} (property : α → SnapshotStore → Prop) :
    PumpPart α → SnapshotStore → Prop
  | .goOn value, store => property value store
  | .stop _, _ => True

/-- What the pump holds in its hands between two saves. -/
def Held (counts : Ask → Prop) (transfer : String) (bytes : List UInt8) (record : SnapshotMeta)
    (store : SnapshotStore) : Prop :=
  Inside .mainLoop transfer bytes store ∧ Ready counts transfer bytes record store

theorem stable_held : (pumpSetting counts).Stable (Held counts transfer bytes record) :=
  stable_inside fun frame ready => Ready.frame ready frame

theorem Held.saves (held : Held counts transfer bytes record store) (sound : Sound counts store) :
    (saveMeta transfer record).Safe (pumpSetting counts)
      (fun result now => result = none → Held counts transfer bytes record now) store := by
  obtain ⟨inside, describes, waiting⟩ := held
  refine Thread.Safe.weaken
    (saveMeta_safe sound describes inside fun frame _ => waiting.frame frame) sound ?_
  rintro result now _ ⟨inside, saved⟩ none
  exact ⟨inside, describes, (saved none).1⟩

theorem stop_safe {α : Type} {property : α → SnapshotStore → Prop} (result : PumpResult) :
    (pure (.stop result) : SnapshotThread (PumpPart α)).Safe (pumpSetting counts)
      (Onward property) store :=
  Thread.Safe.pure stable_true trivial

theorem pumpMeta_safe (sound : Sound counts store)
    (held : Held counts transfer bytes record store) :
    (pumpMeta sender nowMs transfer record progressed).Safe (pumpSetting counts)
      (Onward fun result => Held counts transfer bytes result.1) store := by
  unfold pumpMeta
  split
  · exact Thread.Safe.pure stable_held held
  · obtain ⟨inside, ready⟩ := held
    refine Thread.Safe.bind _ (publish_safe (fun frame ready => Ready.frame ready frame)
      (fun _ (given : True) => given) inside ready fun _ _ _ => trivial) sound ?_
    rintro sent now sound ⟨inside, ready, _⟩
    cases sent with
    | true =>
        have held : Held counts transfer bytes { record with
            replay := decide (5 * 60 * 1000 < nowMs - record.createdMs), metaSent := true } now :=
          ⟨inside, ⟨ready.1.named, ready.1.total⟩, ready.2⟩
        refine Thread.Safe.bind _ (held.saves sound) sound ?_
        intro result now sound saved
        cases result with
        | none => exact Thread.Safe.pure stable_held (saved rfl)
        | some err => exact stop_safe _
    | false =>
        have held : Held counts transfer bytes { record with
            replay := decide (5 * 60 * 1000 < nowMs - record.createdMs) } now :=
          ⟨inside, ⟨ready.1.named, ready.1.total⟩, ready.2⟩
        refine Thread.Safe.bind _ (held.saves sound) sound ?_
        exact fun result now sound _ => stop_safe _

/-- A chunk that was published is no longer waited for. -/
theorem waiting_published {index : Nat} {later : List Nat} {data : List UInt8} {topic : String}
    (sound : Sound counts now) (inside : Inside .mainLoop transfer bytes now)
    (ready : Ready counts transfer bytes record now) (next : record.nextChunks = index :: later)
    (chunk : (splitChunks bytes.length bytes)[index]? = some data) :
    Waiting counts { now with log := now.log ++
        [.chunk topic (chunkEnvelope library sender nowMs record index data)] } transfer later := by
  have frame : Frame now { now with log := now.log ++
      [.chunk topic (chunkEnvelope library sender nowMs record index data)] } transfer :=
    ⟨fun _ => rfl, rfl, fun _ _ => Iff.rfl, _, rfl⟩
  intro ask member counted same
  rcases ready.2.frame frame ask member counted same with delivered | there
  · exact .inl delivered
  · rw [next] at there
    rcases List.mem_cons.mp there with here | behind
    · refine .inl (delivered_iff.2 ⟨bytes, same ▸ inside.staged,
        .chunk topic (chunkEnvelope library sender nowMs record index data), ?_,
        ready.1.named.trans same.symm, here.symm, by rw [here, chunk]; rfl⟩)
      change _ ∈ (now.log ++ _).drop ask.since
      rw [List.drop_append_of_le_length (sound.since ask member)]
      exact List.mem_append_right _ List.mem_cons_self
    · exact .inr behind

theorem pumpChunks_safe {budget : Nat} (sound : Sound counts store)
    (held : Held counts transfer bytes record store) :
    (pumpChunks library sender nowMs transfer budget record progressed).Safe (pumpSetting counts)
      (Onward fun result => Held counts transfer bytes result.1) store := by
  induction budget generalizing record progressed store with
  | zero => exact Thread.Safe.pure stable_held held
  | succ budget ih =>
      rw [pumpChunks]
      cases next : record.nextChunks with
      | nil => exact Thread.Safe.pure stable_held held
      | cons index later =>
          obtain ⟨inside, ready⟩ := held
          refine Thread.Safe.bind _ (readChunk_safe inside ready) sound ?_
          rintro found now sound ⟨inside, ready, chunk⟩
          cases found with
          | none => exact stop_safe _
          | some data =>
              refine Thread.Safe.bind _ (publish_safe (fun frame ready => Ready.frame ready frame)
                (fun frame waiting => Waiting.frame waiting frame) inside ready
                fun sound inside ready =>
                  waiting_published sound inside ready next (chunk data rfl)) sound ?_
              rintro sent now sound ⟨inside, ready, gained⟩
              cases sent with
              | true =>
                  exact ih sound ⟨inside, ⟨ready.1.named, ready.1.total⟩, gained rfl⟩
              | false =>
                  have held : Held counts transfer bytes record now := ⟨inside, ready⟩
                  refine Thread.Safe.bind _ (held.saves sound) sound ?_
                  exact fun result now sound _ => stop_safe _

theorem pumpTransfer_safe (sound : Sound counts store) :
    (pumpTransfer library sender nowMs transfer progressed).Safe (pumpSetting counts)
      (Onward fun _ _ => True) store := by
  have onward : ∀ (result : Bool) (store : SnapshotStore),
      (pure (.goOn result) : SnapshotThread (PumpPart Bool)).Safe (pumpSetting counts)
        (Onward fun _ _ => True) store := fun _ _ => Thread.Safe.pure stable_true trivial
  refine Thread.Safe.bind _ enter_safe sound ?_
  intro _ now sound mine
  refine Thread.Safe.bind _ (readMeta_safe mine) sound ?_
  intro file now sound known
  cases file with
  | missing => exact onward _ _
  | torn => exact onward _ _
  | whole record =>
      obtain ⟨bytes, held⟩ := known record rfl
      dsimp only
      split
      · refine Thread.Safe.bind _ (renameDir_safe (fun _ (given : True) => given) held.1 trivial
          nofun nofun) sound ?_
        exact fun _ _ _ _ => onward _ _
      · refine Thread.Safe.bind _ (pumpMeta_safe sound held) sound ?_
        intro part now sound reached
        cases part with
        | stop result => exact stop_safe _
        | goOn result =>
            obtain ⟨record, progressed⟩ := result
            refine Thread.Safe.bind _ (pumpChunks_safe sound reached) sound ?_
            intro part now sound reached
            cases part with
            | stop result => exact stop_safe _
            | goOn result =>
                obtain ⟨record, budget, progressed⟩ := result
                dsimp only
                split
                next empty =>
                  have held : Held counts transfer bytes record now := reached
                  refine Thread.Safe.bind _ (renameDir_safe
                    (fun frame ready => Ready.frame ready frame) held.1 held.2 nofun
                    fun ready _ => empty ▸ ready.2) sound ?_
                  intro _ now sound _
                  split
                  · exact stop_safe _
                  · exact onward _ _
                next =>
                  refine Thread.Safe.bind _ (Held.saves reached sound) sound ?_
                  intro result now sound _
                  cases result with
                  | some err => exact stop_safe _
                  | none =>
                      dsimp only
                      split
                      · exact stop_safe _
                      · exact onward _ _

theorem pumpTransfers_safe {transfers : List String} (sound : Sound counts store) :
    (pumpTransfers library sender nowMs transfers progressed).Safe (pumpSetting counts)
      (fun _ _ => True) store := by
  induction transfers generalizing progressed store with
  | nil => exact Thread.Safe.pure stable_true trivial
  | cons transfer later ih =>
      refine Thread.Safe.bind _ (pumpTransfer_safe sound) sound ?_
      intro part now sound _
      cases part with
      | stop result => exact Thread.Safe.pure stable_true trivial
      | goOn progressed => exact ih sound

theorem listPending_safe :
    listPending.Safe (pumpSetting counts) (fun _ _ => True) store := by
  refine Thread.Safe.perform stable_true (fun _ => stable_true) trivial ?_
  rintro now sound _ _ listed later ⟨choice, performed⟩
  cases choice with
  | succeed | fail torn =>
      rw [performs] at performed
      obtain ⟨_, rfl⟩ := Prod.mk.inj performed
      exact ⟨unchanged sound, trivial⟩

theorem pump_safe (sound : Sound counts store) :
    (pump library sender nowMs).Safe (pumpSetting counts) (fun _ _ => True) store :=
  Thread.Safe.bind _ listPending_safe sound fun _ _ sound _ => pumpTransfers_safe sound

end Pump

section Nack

open SnapshotStore

variable {counts : Ask → Prop} {store now : SnapshotStore} {transfer : String}
  {bytes : List UInt8} {record : SnapshotMeta} {library : SnapshotLibrary} {nack : Value}
  {nowMs : Int}

/-- The indices that a message asks for. -/
def namedIndices (nack : Value) : List Nat :=
  ((missingField nack).getD []).filterMap fun item =>
    match item with
    | .unsigned index => some index.toNat
    | _ => none

theorem mem_unique {index : Nat} {indices : List Nat} : index ∈ unique indices ↔ index ∈ indices := by
  induction indices using unique.induct with
  | case1 => rfl
  | case2 => rfl
  | case3 first later ih =>
      rw [unique, if_pos rfl, ih]
      simp
  | case4 first next later apart ih =>
      rw [unique, if_neg apart, List.mem_cons, ih]
      exact List.mem_cons.symm

theorem missingIndices_eq {total : Nat} {items : List Value} {missing : List Nat}
    (read : missingIndices total items = some missing) :
    (items.filterMap fun item =>
      match item with
      | .unsigned index => some index.toNat
      | _ => none) = missing := by
  induction items generalizing missing with
  | nil =>
      cases read
      rfl
  | cons item later ih =>
      cases item with
      | unsigned index =>
          rw [missingIndices] at read
          split at read
          · obtain ⟨others, found, rfl⟩ := Option.map_eq_some_iff.mp read
            rw [List.filterMap_cons]
            exact congrArg (index.toNat :: ·) (ih found)
          · cases read
      | _ => cases read

/-- An accepted list is what the message names. -/
theorem mem_nackMeta {missing : List Nat} (accepted : nackMeta nowMs nack record = .ok missing)
    {index : Nat} : index ∈ missing ↔ index ∈ namedIndices nack := by
  unfold nackMeta at accepted
  split at accepted
  · cases accepted
  · cases field : missingField nack with
    | none =>
        rw [field] at accepted
        cases accepted
    | some items =>
        rw [field] at accepted
        dsimp only at accepted
        cases read : missingIndices record.totalChunks items with
        | none =>
            rw [read] at accepted
            cases accepted
        | some indices =>
            rw [read] at accepted
            cases accepted
            rw [mem_unique, List.mem_mergeSort, namedIndices, field, ← missingIndices_eq read]
            rfl

abbrev nackSetting (counts : Ask → Prop) (nack : Value) :
    Thread.Setting SnapshotStore SnapshotAct SnapshotAct.Answer :=
  snapshotSetting counts .network (namedIndices nack)

/-- An accepted acknowledgement has put its list in place. -/
def NackEnds (counts : Ask → Prop) : NackResult → SnapshotStore → Prop
  | .accepted transfer missing, store => ∃ bytes record,
      Inside .network transfer bytes store ∧ record.nextChunks = missing ∧
        Saved counts transfer record TransferDir.metaJson store
  | _, _ => True

theorem refused_safe {result : NackResult} (refused : ∀ store, NackEnds counts result store) :
    (pure result : SnapshotThread NackResult).Safe (nackSetting counts nack) (NackEnds counts)
      store :=
  Thread.Safe.pure (fun _ _ _ _ _ => refused _) (refused _)

theorem stable_nackEnds (result : NackResult) :
    (nackSetting counts nack).Stable (NackEnds counts result) := by
  intro store now rely _ answered
  cases result with
  | accepted transfer missing =>
      obtain ⟨bytes, record, inside, next, saved⟩ := answered
      exact ⟨bytes, record, inside.stable rely, next, saved.frame (inside.frame rely)⟩
  | refused err => trivial
  | threw error => trivial

theorem isDirectory_safe {place : Place} (mine : store.inUse .network = some transfer) :
    (isDirectory transfer place).Safe (nackSetting counts nack)
      (fun _ now => now.inUse .network = some transfer) store := by
  refine Thread.Safe.perform stable_mine (fun _ => stable_mine) mine ?_
  rintro now sound mine _ found later ⟨choice, performed⟩
  rw [performs] at performed
  obtain ⟨_, rfl⟩ := Prod.mk.inj performed
  exact ⟨unchanged sound, mine⟩

/-- A transfer that has been published may go back. -/
theorem renameBack_safe (mine : store.inUse .network = some transfer) :
    (renameDir transfer .done .pending).Safe (nackSetting counts nack)
      (fun _ now => now.inUse .network = some transfer) store := by
  refine Thread.Safe.perform stable_mine (fun _ => stable_mine) mine ?_
  rintro now sound mine _ renamed later ⟨choice, performed⟩
  cases choice with
  | fail torn =>
      rw [performs] at performed
      obtain ⟨_, rfl⟩ := Prod.mk.inj performed
      exact ⟨unchanged sound, mine⟩
  | succeed =>
      rw [performs] at performed
      split at performed
      next dir here pending =>
        obtain ⟨_, rfl⟩ := Prod.mk.inj performed
        cases sound.transfers transfer with
        | unstaged _ elsewhere _ _ =>
            rw [elsewhere .done nofun] at here
            cases here
        | staged bytes place stored record staged found elsewhere readable describes chunks _
            finished =>
            have same : place = .done := by
              by_contra apart
              rw [elsewhere .done (Ne.symm apart)] at here
              cases here
            subst same
            obtain rfl := Option.some.inj (found.symm.trans here)
            have all := finished rfl
            exact ⟨moved sound mine staged elsewhere readable describes chunks
              (fun _ ask member counted same =>
                .inl ((all ask member counted same).resolve_right List.not_mem_nil))
              nofun, mine⟩
      next =>
        obtain ⟨_, rfl⟩ := Prod.mk.inj performed
        exact ⟨unchanged sound, mine⟩

theorem reactivate_safe (sound : Sound counts store)
    (mine : store.inUse .network = some transfer) :
    (reactivate transfer).Safe (nackSetting counts nack)
      (fun _ now => now.inUse .network = some transfer) store := by
  refine Thread.Safe.bind _ (isDirectory_safe mine) sound ?_
  intro pending now sound mine
  cases pending with
  | true => exact Thread.Safe.pure stable_mine mine
  | false =>
      refine Thread.Safe.bind _ (isDirectory_safe mine) sound ?_
      intro done now sound mine
      cases done with
      | false => exact Thread.Safe.pure stable_mine mine
      | true =>
          refine Thread.Safe.bind _ (renameBack_safe mine) sound ?_
          intro renamed now sound mine
          cases renamed with
          | true => exact Thread.Safe.pure stable_mine mine
          | false => exact Thread.Safe.pure stable_mine mine

theorem nackTransfer_safe (sound : Sound counts store) :
    (nackTransfer nowMs nack transfer).Safe (nackSetting counts nack) (NackEnds counts) store := by
  refine Thread.Safe.bind _ enter_safe sound ?_
  intro _ now sound mine
  refine Thread.Safe.bind _ (reactivate_safe sound mine) sound ?_
  intro back now sound mine
  cases back with
  | some err => exact refused_safe fun _ => trivial
  | none =>
      refine Thread.Safe.bind _ (isDirectory_safe mine) sound ?_
      intro pending now sound mine
      cases pending with
      | false => exact refused_safe fun _ => trivial
      | true =>
          refine Thread.Safe.bind _ (readMeta_safe mine) sound ?_
          intro file now sound known
          cases file with
          | missing => exact refused_safe fun _ => trivial
          | torn => exact refused_safe fun _ => trivial
          | whole record =>
              obtain ⟨bytes, inside, ready⟩ := known record rfl
              dsimp only
              cases accepted : nackMeta nowMs nack record with
              | error err => exact refused_safe fun _ => trivial
              | ok missing =>
                  have saves := @saveMeta_safe counts now .network transfer bytes
                    { record with nextChunks := missing } (namedIndices nack) sound
                    ⟨ready.1.named, ready.1.total⟩ inside fun _ admitted ask member counted same =>
                      (admitted rfl ask member counted same).imp_right (mem_nackMeta accepted).mpr
                  refine Thread.Safe.bind _ saves sound ?_
                  rintro result now sound ⟨inside, saved⟩
                  cases result with
                  | some err => exact refused_safe fun _ => trivial
                  | none =>
                      exact Thread.Safe.pure (stable_nackEnds _)
                        ⟨bytes, { record with nextChunks := missing }, inside, rfl, saved rfl⟩

def namedBy (library : SnapshotLibrary) (payload : List UInt8) : List Nat :=
  match library.parse payload with
  | .error _ => []
  | .ok nack => namedIndices nack

theorem onNack_safe {payload : List UInt8} (sound : Sound counts store) :
    (onNack library nowMs payload).Safe
      (snapshotSetting counts .network (namedBy library payload)) (NackEnds counts) store := by
  unfold onNack namedBy
  cases library.parse payload with
  | error what => exact fun _ _ _ => trivial
  | ok nack =>
      dsimp only
      split
      · exact refused_safe fun _ => trivial
      · split
        · exact refused_safe fun _ => trivial
        · exact nackTransfer_safe sound

end Nack

end Idsm.Managerd
