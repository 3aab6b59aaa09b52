import Idsm.Managerd.SnapshotProperties

/-! Every run of staging, pump passes, acknowledgements and restarts: what has been published
of a transfer that rests in `done`, and that its record stays readable. -/

set_option autoImplicit false

namespace Idsm.Managerd

open Idsm.Foundation
open Idsm.Json (Value)

section Staging

open SnapshotStore

variable {counts : Ask → Prop} {base store : SnapshotStore} {transfer : String}
  {bytes : List UInt8} {library : SnapshotLibrary} {req : SnapshotRequest} {nowMs : Int}

/-- A new directory in which something may have been written; nothing else has changed. -/
structure Fresh (base : SnapshotStore) (transfer : String) (store : SnapshotStore) : Prop where
  log : store.log = base.log
  staged : store.staged = base.staged
  asks : store.asks = base.asks
  inUse : store.inUse = base.inUse
  others : ∀ place other, other ≠ transfer → store.dir? place other = base.dir? place other
  elsewhere : ∀ place, place ≠ .pending → store.dir? place transfer = base.dir? place transfer

/-- It has no record yet. -/
structure Unrecorded (base : SnapshotStore) (transfer : String) (store : SnapshotStore) : Prop
    extends Fresh base transfer store where
  noRecord : ∀ dir, store.dir? .pending transfer = some dir → dir.metaJson = .missing

def Holds (base : SnapshotStore) (transfer : String) (chunks : List (List UInt8))
    (store : SnapshotStore) : Prop :=
  Unrecorded base transfer store ∧
    ∃ dir, store.dir? .pending transfer = some dir ∧ dir.chunks = chunks

def Recorded (base : SnapshotStore) (transfer : String) (chunks : List (List UInt8))
    (record : SnapshotMeta) (store : SnapshotStore) : Prop :=
  Fresh base transfer store ∧ ∃ dir, store.dir? .pending transfer = some dir ∧
    dir.chunks = chunks ∧ dir.metaJson = .whole record

theorem Fresh.setDir (fresh : Fresh base transfer store) (dir : TransferDir) :
    Fresh base transfer (store.setDir .pending transfer dir) := by
  refine ⟨fresh.log, fresh.staged, fresh.asks, fresh.inUse, fun place other apart => ?_,
    fun place apart => ?_⟩
  · rw [dir?_setDir, if_neg fun both => apart both.2.symm]
    exact fresh.others place other apart
  · rw [dir?_setDir, if_neg fun both => apart both.1]
    exact fresh.elsewhere place apart

theorem Holds.setDir {chunks : List (List UInt8)} (holds : Fresh base transfer store)
    {dir : TransferDir} (noRecord : dir.metaJson = .missing) (same : dir.chunks = chunks) :
    Holds base transfer chunks (store.setDir .pending transfer dir) := by
  have here : (store.setDir .pending transfer dir).dir? .pending transfer = some dir := by
    rw [dir?_setDir, if_pos ⟨rfl, rfl⟩]
  refine ⟨⟨holds.setDir dir, fun other found => ?_⟩, dir, here, same⟩
  obtain rfl := Option.some.inj (here.symm.trans found)
  exact noRecord

abbrev mainActs : SnapshotStore → (action : SnapshotAct) → Choice → action.Answer × SnapshotStore :=
  fun store => store.performs .mainLoop

theorem makeDirs_alone :
    Thread.Alone mainActs (Unrecorded base transfer) (makeDirs transfer)
      (fun made store => Unrecorded base transfer store ∧
        (made = true → Holds base transfer [] store)) (Unrecorded base transfer) := by
  refine Thread.Alone.perform (fun _ given => given) fun store choice given => ?_
  cases choice with
  | fail torn => exact ⟨given, nofun⟩
  | succeed =>
      have holds := @Holds.setDir base store transfer [] given.toFresh ⟨.missing, .missing, []⟩
        rfl rfl
      exact ⟨holds.1, fun _ => holds⟩

theorem writeChunk_alone {chunks : List (List UInt8)} {data : List UInt8} :
    Thread.Alone mainActs (Holds base transfer chunks) (writeChunk transfer data)
      (fun written store => Unrecorded base transfer store ∧
        (written = true → Holds base transfer (chunks ++ [data]) store))
      (Unrecorded base transfer) := by
  refine Thread.Alone.perform (fun _ given => given.1) ?_
  rintro store choice ⟨unrecorded, dir, here, same⟩
  cases choice with
  | fail torn => exact ⟨unrecorded, nofun⟩
  | succeed =>
      have holds := @Holds.setDir base store transfer (chunks ++ [data]) unrecorded.toFresh
        { dir with chunks := dir.chunks ++ [data] } (unrecorded.noRecord dir here) (by rw [← same])
      rw [mainActs, performs, here]
      exact ⟨holds.1, fun _ => holds⟩

theorem writeChunks_alone {chunks : List (List UInt8)} {later : List (List UInt8)} {index : Nat} :
    Thread.Alone mainActs (Holds base transfer chunks) (writeChunks transfer index later)
      (fun result store => Unrecorded base transfer store ∧
        (result = none → Holds base transfer (chunks ++ later) store))
      (Unrecorded base transfer) := by
  induction later generalizing chunks index with
  | nil =>
      refine Thread.Alone.pure fun store given => ⟨given.1, fun _ => ?_⟩
      rw [List.append_nil]
      exact given
  | cons data later ih =>
      refine Thread.Alone.bind _ writeChunk_alone fun written => ?_
      cases written with
      | false => exact Thread.Alone.pure fun store given => ⟨given.1, nofun⟩
      | true =>
          intro choices store given
          have reached := @ih (chunks ++ [data]) (index + 1) choices store (given.2 rfl)
          rw [List.append_assoc] at reached
          exact reached

private def recordedIf (base : SnapshotStore) (transfer : String) (chunks : List (List UInt8))
    (record : SnapshotMeta) : Bool → SnapshotStore → Prop
  | true, store => Recorded base transfer chunks record store
  | false, store => Unrecorded base transfer store

theorem saveMeta_alone {chunks : List (List UInt8)} {record : SnapshotMeta} :
    Thread.Alone mainActs (Holds base transfer chunks) (saveMeta transfer record)
      (fun result store => match result with
        | none => Recorded base transfer chunks record store
        | some _ => Unrecorded base transfer store) (Unrecorded base transfer) := by
  refine Thread.Alone.bind
    (fun written store => Holds base transfer chunks store ∧ (written = true →
      ∃ dir, store.dir? .pending transfer = some dir ∧ dir.metaTmp = .whole record))
    (Thread.Alone.perform (fun _ given => given.1) ?_) fun written => ?_
  · rintro store choice ⟨unrecorded, dir, here, same⟩
    cases choice with
    | succeed =>
        have holds := @Holds.setDir base store transfer chunks unrecorded.toFresh
          { dir with metaTmp := .whole record } (unrecorded.noRecord dir here) same
        rw [mainActs, performs, here]
        refine ⟨holds, fun _ => ⟨{ dir with metaTmp := .whole record }, ?_, rfl⟩⟩
        rw [dir?_setDir, if_pos ⟨rfl, rfl⟩]
    | fail torn =>
        cases torn with
        | false => exact ⟨⟨unrecorded, dir, here, same⟩, (by rintro ⟨⟩)⟩
        | true =>
            have holds := @Holds.setDir base store transfer chunks unrecorded.toFresh
              { dir with metaTmp := .torn } (unrecorded.noRecord dir here) same
            rw [mainActs, performs, here]
            exact ⟨holds, (by rintro ⟨⟩)⟩
  · cases written with
    | false => exact Thread.Alone.pure fun store given => given.1.1
    | true =>
        refine Thread.Alone.bind
          (recordedIf base transfer chunks record)
          (Thread.Alone.perform (fun _ given => given.1.1) ?_) fun renamed => ?_
        · rintro store choice ⟨⟨unrecorded, dir, here, same⟩, written⟩
          obtain ⟨found, there, tmp⟩ := written rfl
          obtain rfl := Option.some.inj (here.symm.trans there)
          cases choice with
          | fail torn => exact unrecorded
          | succeed =>
              have performed : store.performs .mainLoop (.renameTmp transfer) .succeed =
                  (true, store.setDir .pending transfer
                    { dir with metaJson := .whole record, metaTmp := .missing }) := by
                rw [performs, here]
                dsimp only
                rw [tmp, if_neg (by rintro ⟨⟩)]
                rfl
              rw [mainActs, performed]
              refine ⟨unrecorded.toFresh.setDir _,
                { dir with metaJson := .whole record, metaTmp := .missing }, ?_, same, rfl⟩
              rw [dir?_setDir, if_pos ⟨rfl, rfl⟩]
        · cases renamed with
          | false => exact Thread.Alone.pure fun store given => given
          | true => exact Thread.Alone.pure fun store given => given

/-- A staged transfer has all chunks of the file and a record that lists them; staging that
failed or was cut has left no record. -/
theorem stageUpload_alone {contents : Option (List UInt8)} :
    Thread.Alone mainActs (Unrecorded base transfer)
      (stageUpload library req contents nowMs transfer)
      (fun result store => match result, contents with
        | .ok _, some bytes => Recorded base transfer (splitChunks bytes.length bytes)
            (stagedMeta library req bytes nowMs transfer) store
        | .ok _, none => False
        | .error _, _ => Unrecorded base transfer store)
      (Unrecorded base transfer) := by
  unfold stageUpload
  cases contents with
  | none => exact Thread.Alone.pure fun store given => given
  | some bytes =>
      dsimp only
      split
      · exact Thread.Alone.pure fun store given => given
      · split
        · exact Thread.Alone.pure fun store given => given
        · refine Thread.Alone.bind _ makeDirs_alone fun made => ?_
          cases made with
          | false => exact Thread.Alone.pure fun store given => given.1
          | true =>
              refine Thread.Alone.bind
                (fun result store => Unrecorded base transfer store ∧
                  (result = none → Holds base transfer (splitChunks bytes.length bytes) store))
                (fun choices store given => writeChunks_alone choices store (given.2 rfl))
                fun result => ?_
              cases result with
              | some err => exact Thread.Alone.pure fun store given => given.1
              | none =>
                  refine Thread.Alone.bind
                    (fun result store => match result with
                      | none => Recorded base transfer (splitChunks bytes.length bytes)
                          (stagedMeta library req bytes nowMs transfer) store
                      | some _ => Unrecorded base transfer store)
                    (fun choices store given => saveMeta_alone choices store (given.2 rfl))
                    fun result => ?_
                  cases result with
                  | some err => exact Thread.Alone.pure fun store given => given
                  | none => exact Thread.Alone.pure fun store given => given

end Staging

section System

open SnapshotStore

variable {counts : Ask → Prop} {library : SnapshotLibrary} {system later : SnapshotSystem}
  {store now : SnapshotStore} {side : Side} {transfer : String} {bytes : List UInt8}

/-- What the next step must not do: enter a transfer that the other thread is in, or save an
acknowledgement that leaves out a chunk which is still asked for. -/
def Careful (counts : Ask → Prop) (library : SnapshotLibrary) (system : SnapshotSystem) :
    SnapshotEvent → Prop
  | .pumpActs _ =>
      match system.pump with
      | some (.act action _) => Admitted counts .mainLoop [] system.store action
      | _ => True
  | .nackActs _ =>
      match system.nack with
      | some ⟨payload, .act action _⟩ =>
          Admitted counts .network (namedBy library payload) system.store action
      | _ => True
  | _ => True

instance [DecidablePred counts] : DecidablePred (Careful counts library system) := fun event =>
  match event with
  | .pumpActs _ =>
      match busy : system.pump with
      | some (.act action _) =>
          decidable_of_iff (Admitted counts .mainLoop [] system.store action)
            (by simp [Careful, busy])
      | some (.done _) => .isTrue (by simp [Careful, busy])
      | none => .isTrue (by simp [Careful, busy])
  | .nackActs _ =>
      match busy : system.nack with
      | some ⟨payload, .act action _⟩ =>
          decidable_of_iff
            (Admitted counts .network (namedBy library payload) system.store action)
            (by simp [Careful, busy])
      | some ⟨_, .done _⟩ => .isTrue (by simp [Careful, busy])
      | none => .isTrue (by simp [Careful, busy])
  | .stage _ _ _ _ _ | .pumpStarts _ _ | .nackArrives _ _ | .restart =>
      inferInstanceAs (Decidable True)

/-- The store is sound, and each thread goes on as it should from there. -/
structure SystemSound (counts : Ask → Prop) (library : SnapshotLibrary)
    (system : SnapshotSystem) : Prop where
  sound : Sound counts system.store
  pump : ∀ thread, system.pump = some thread →
    thread.Safe (pumpSetting counts) (fun _ _ => True) system.store
  nack : ∀ call, system.nack = some call →
    call.thread.Safe (snapshotSetting counts .network (namedBy library call.payload))
      (NackEnds counts) system.store

/-- A thread that ends leaves its transfer to the other one. -/
theorem left (sound : Sound counts store) (side : Side) :
    Sound counts (store.leave side) ∧ Rely side.other store (store.leave side) := by
  have frame : ∀ transfer, Frame store (store.leave side) transfer :=
    fun _ => ⟨fun _ => rfl, rfl, fun _ _ => Iff.rfl, [], (List.append_nil _).symm⟩
  have own : (store.leave side).inUse side = none := Function.update_self _ _ _
  have others : (store.leave side).inUse side.other = store.inUse side.other :=
    Function.update_of_ne side.other_ne _ _
  refine ⟨⟨fun transfer mine theirs => ?_,
    fun transfer => (sound.transfers transfer).frame (frame transfer), sound.since,
    sound.first⟩, others, fun transfer _ _ => frame transfer⟩
  cases side with
  | mainLoop =>
      rw [own] at mine
      cases mine
  | network =>
      rw [own] at theirs
      cases theirs

/-- Some chunks of the transfer that a thread works in are asked for again. -/
theorem asked {record : SnapshotMeta} {indices : List Nat}
    (sound : Sound counts store) (inside : Inside side transfer bytes store)
    (saved : Saved counts transfer record TransferDir.metaJson store)
    (listed : record.nextChunks = indices) :
    Sound counts (store.asking transfer false indices) ∧
      Guarantee side store (store.asking transfer false indices) := by
  have frame : ∀ other, other ≠ transfer →
      Frame store (store.asking transfer false indices) other := by
    refine fun other apart => ⟨fun _ => rfl, rfl, fun ask same => ?_, [], (List.append_nil _).symm⟩
    refine ⟨fun member => ?_, fun member => List.mem_append_left _ member⟩
    rcases List.mem_append.mp member with before | new
    · exact before
    · obtain ⟨_, _, rfl⟩ := List.mem_map.mp new
      exact absurd same.symm apart
  obtain ⟨dir, _, here, _, _, chunks, _, elsewhere⟩ := inside.state sound
  obtain ⟨waiting, stored, found, readable⟩ := saved
  obtain rfl := Option.some.inj (here.symm.trans found)
  refine ⟨⟨sound.apart, fun other => ?_, fun ask member => ?_,
    fun other bytes staged index inside => ?_⟩, rfl, fun other apart => ?_⟩
  · by_cases same : other = transfer
    · subst same
      obtain ⟨_, record', here', readable', describes, _, _, _⟩ := inside.state sound
      obtain rfl := Option.some.inj (here'.symm.trans found)
      obtain rfl := MetaFile.whole.inj (readable'.symm.trans readable)
      refine .staged bytes .pending _ record' inside.staged found elsewhere readable describes
        chunks (fun _ ask member counted same => ?_) nofun
      rcases List.mem_append.mp member with before | new
      · exact waiting ask before counted same
      · obtain ⟨index, there, rfl⟩ := List.mem_map.mp new
        exact .inr (listed ▸ there)
    · exact (sound.transfers other).frame (frame other same)
  · rcases List.mem_append.mp member with before | new
    · exact sound.since ask before
    · obtain ⟨_, _, rfl⟩ := List.mem_map.mp new
      exact Nat.le_refl _
  · obtain ⟨ask, member, known⟩ := sound.first other bytes staged index inside
    exact ⟨ask, List.mem_append_left _ member, known⟩
  · exact frame other fun same => apart (same ▸ inside.mine)

theorem SystemSound.pumpSettles {thread : SnapshotThread PumpResult}
    (nack : ∀ call, system.nack = some call →
      call.thread.Safe (snapshotSetting counts .network (namedBy library call.payload))
        (NackEnds counts) store)
    (sound : Sound counts store) (safe : thread.Safe (pumpSetting counts) (fun _ _ => True) store) :
    SystemSound counts library (system.pumpSettles store thread) := by
  cases thread with
  | done result =>
      obtain ⟨kept, rely⟩ := left sound .mainLoop
      exact ⟨kept, nofun, fun call busy => (nack call busy).stable rely⟩
  | act action next =>
      refine ⟨sound, fun thread busy => ?_, nack⟩
      obtain rfl := Option.some.inj busy
      exact safe

theorem SystemSound.nackSettles {payload : List UInt8} {thread : SnapshotThread NackResult}
    (pump : ∀ thread, system.pump = some thread →
      thread.Safe (pumpSetting counts) (fun _ _ => True) store)
    (sound : Sound counts store)
    (safe : thread.Safe (snapshotSetting counts .network (namedBy library payload))
      (NackEnds counts) store) :
    SystemSound counts library (system.nackSettles store payload thread) := by
  have ends : Sound counts (store.leave .network) ∧
      ∀ thread, system.pump = some thread →
        thread.Safe (pumpSetting counts) (fun _ _ => True) (store.leave .network) := by
    obtain ⟨kept, rely⟩ := left sound .network
    exact ⟨kept, fun thread busy => (pump thread busy).stable rely⟩
  cases thread with
  | act action next =>
      refine ⟨sound, pump, fun call busy => ?_⟩
      obtain rfl := Option.some.inj busy
      exact safe
  | done result =>
      cases result with
      | refused err => exact ⟨ends.1, ends.2, nofun⟩
      | threw error => exact ⟨ends.1, ends.2, nofun⟩
      | accepted transfer missing =>
          have reached : NackEnds counts (.accepted transfer missing) store :=
            safe store (.refl _) sound
          obtain ⟨bytes, record, inside, listed, saved⟩ := reached
          obtain ⟨kept, guarantee⟩ := asked sound inside saved listed
          obtain ⟨left, rely⟩ := left kept .network
          exact ⟨left, fun thread busy =>
            ((pump thread busy).stable (guarantee.rely sound)).stable rely, nofun⟩

theorem unknown_iff : store.unknown transfer = true ↔
    (∀ place, store.dir? place transfer = none) ∧ store.staged.find? transfer = none := by
  unfold unknown
  rw [Bool.and_eq_true, Bool.and_eq_true, Bool.and_eq_true, Option.isNone_iff_eq_none,
    Option.isNone_iff_eq_none, Option.isNone_iff_eq_none, Option.isNone_iff_eq_none]
  constructor
  · rintro ⟨⟨⟨pending, done⟩, expired⟩, staged⟩
    refine ⟨fun place => ?_, staged⟩
    cases place with
    | pending => exact pending
    | done => exact done
    | expired => exact expired
  · exact fun known => ⟨⟨⟨known.1 _, known.1 _⟩, known.1 _⟩, known.2⟩

theorem Fresh.frame {base : SnapshotStore} {other : String} (fresh : Fresh base transfer store)
    (apart : other ≠ transfer) : Frame base store other :=
  ⟨fun place => fresh.others place other apart, by rw [fresh.staged],
    fun _ _ => by rw [fresh.asks], [], by rw [fresh.log, List.append_nil]⟩

/-- A new name is in nobody's way. -/
theorem rely_of_unknown {base : SnapshotStore} (unknown : base.unknown transfer = true)
    (inUse : store.inUse = base.inUse) (frame : ∀ other, other ≠ transfer → Frame base store other) :
    Rely side base store := by
  refine ⟨by rw [inUse], fun other _ staged => frame other fun same => ?_⟩
  rw [same, (unknown_iff.1 unknown).2] at staged
  cases staged

theorem Unrecorded.sound {base : SnapshotStore} (unrecorded : Unrecorded base transfer store)
    (sound : Sound counts base) (unknown : base.unknown transfer = true) :
    Sound counts store := by
  obtain ⟨absent, unstaged⟩ := unknown_iff.1 unknown
  refine ⟨by rw [unrecorded.inUse]; exact sound.apart, fun other => ?_,
    by rw [unrecorded.asks, unrecorded.log]; exact sound.since,
    by rw [unrecorded.asks, unrecorded.staged]; exact sound.first⟩
  by_cases same : other = transfer
  · subst same
    cases sound.transfers other with
    | staged bytes _ _ _ staged _ _ _ _ _ _ _ =>
        rw [unstaged] at staged
        cases staged
    | unstaged _ _ _ silent =>
        refine .unstaged (by rw [unrecorded.staged]; exact unstaged)
          (fun place apart => (unrecorded.elsewhere place apart).trans (absent place))
          unrecorded.noRecord ?_
        rw [unrecorded.asks]
        exact silent
  · exact (sound.transfers other).frame (unrecorded.toFresh.frame same)

/-- A staged transfer asks for all of its chunks, and its record lists them. -/
theorem Recorded.sound {base : SnapshotStore} {req : SnapshotRequest} {nowMs : Int}
    (recorded : Recorded base transfer (splitChunks bytes.length bytes)
      (stagedMeta library req bytes nowMs transfer) store)
    (sound : Sound counts base) (unknown : base.unknown transfer = true) :
    let total := (splitChunks bytes.length bytes).length
    let next := { store with staged := store.staged.insert transfer bytes }
    Sound counts (next.asking transfer true (List.range total)) ∧
      ∀ other, other ≠ transfer → Frame base (next.asking transfer true (List.range total)) other := by
  intro total next
  obtain ⟨fresh, dir, here, chunks, readable⟩ := recorded
  obtain ⟨absent, unstaged⟩ := unknown_iff.1 unknown
  have asks : (next.asking transfer true (List.range total)).asks = base.asks ++
      (List.range total).map fun index => ⟨transfer, index, store.log.length, true⟩ := by
    rw [← fresh.asks]
    rfl
  have frame : ∀ other, other ≠ transfer →
      Frame base (next.asking transfer true (List.range total)) other := by
    intro other apart
    refine ⟨fun place => fresh.others place other apart, ?_, fun ask same => ?_, [], ?_⟩
    · change (store.staged.insert transfer bytes).find? other = _
      rw [OrderedMap.find?_insert_of_ne _ _ (Ne.symm apart), fresh.staged]
    · rw [asks]
      refine ⟨fun member => ?_, fun member => List.mem_append_left _ member⟩
      rcases List.mem_append.mp member with before | new
      · exact before
      · obtain ⟨_, _, rfl⟩ := List.mem_map.mp new
        exact absurd same.symm apart
    · rw [List.append_nil]
      exact fresh.log
  refine ⟨⟨?_, fun other => ?_, fun ask member => ?_, fun other data staged index inside => ?_⟩,
    frame⟩
  · change ∀ transfer, store.inUse .mainLoop = some transfer →
      store.inUse .network ≠ some transfer
    rw [fresh.inUse]
    exact sound.apart
  · by_cases same : other = transfer
    · subst same
      have silent : ∀ ask ∈ base.asks, ask.transfer ≠ other := by
        cases sound.transfers other with
        | staged _ _ _ _ staged _ _ _ _ _ _ _ =>
            rw [unstaged] at staged
            cases staged
        | unstaged _ _ _ silent => exact silent
      refine .staged bytes .pending dir (stagedMeta library req bytes nowMs other)
        (OrderedMap.find?_insert_self _ _ _) here
        (fun place apart => (fresh.elsewhere place apart).trans (absent place)) readable
        ⟨rfl, rfl⟩ chunks (fun _ ask member counted named => ?_) nofun
      rw [asks] at member
      rcases List.mem_append.mp member with before | new
      · exact absurd named (silent ask before)
      · obtain ⟨index, there, rfl⟩ := List.mem_map.mp new
        exact .inr there
    · exact (sound.transfers other).frame (frame other same)
  · change ask.since ≤ store.log.length
    rw [asks] at member
    rcases List.mem_append.mp member with before | new
    · rw [fresh.log]
      exact sound.since ask before
    · obtain ⟨_, _, rfl⟩ := List.mem_map.mp new
      exact Nat.le_refl _
  · change (store.staged.insert transfer bytes).find? other = some data at staged
    rw [asks]
    by_cases same : other = transfer
    · subst same
      rw [OrderedMap.find?_insert_self] at staged
      obtain rfl := Option.some.inj staged
      exact ⟨_, List.mem_append_right _ (List.mem_map_of_mem (List.mem_range.mpr inside)),
        rfl, rfl, rfl⟩
    · rw [OrderedMap.find?_insert_of_ne _ _ (Ne.symm same), fresh.staged] at staged
      obtain ⟨ask, member, known⟩ := sound.first other data staged index inside
      exact ⟨ask, List.mem_append_left _ member, known⟩

theorem SystemSound.stageSettles {req : SnapshotRequest} {contents : Option (List UInt8)}
    {nowMs : Int} {choices : List Choice} (holds : SystemSound counts library system)
    (unknown : system.store.unknown transfer = true) :
    SystemSound counts library
      (system.stageSettles library req contents nowMs transfer choices) := by
  obtain ⟨sound, pump, nack⟩ := holds
  have start : Unrecorded system.store transfer system.store := by
    refine ⟨⟨rfl, rfl, rfl, rfl, fun _ _ _ => rfl, fun _ _ => rfl⟩, fun dir here => ?_⟩
    rw [(unknown_iff.1 unknown).1] at here
    cases here
  have ended := @stageUpload_alone system.store transfer library req nowMs contents choices
    system.store start
  have unfinished : ∀ {store}, Unrecorded system.store transfer store →
      SystemSound counts library { system with store } := by
    intro store unrecorded
    have rely : ∀ {side}, Rely side system.store store :=
      rely_of_unknown unknown unrecorded.inUse fun other apart => unrecorded.toFresh.frame apart
    exact ⟨unrecorded.sound sound unknown, fun thread busy => (pump thread busy).stable rely,
      fun call busy => (nack call busy).stable rely⟩
  unfold SnapshotSystem.stageSettles
  cases result : (stageUpload library req contents nowMs transfer).runAlone mainActs choices
      system.store with
  | mk finished store =>
      rw [result] at ended
      cases finished with
      | none => exact unfinished ended
      | some finished =>
          obtain ⟨value, rest⟩ := finished
          cases value with
          | error err => exact unfinished ended
          | ok name =>
              cases contents with
              | none => exact ended.elim
              | some bytes =>
                  obtain ⟨kept, frame⟩ := Recorded.sound ended sound unknown
                  have rely : ∀ {side}, Rely side system.store
                      (asking { store with staged := store.staged.insert transfer bytes } transfer
                        true (List.range (splitChunks bytes.length bytes).length)) :=
                    rely_of_unknown unknown ended.1.inUse frame
                  exact ⟨kept, fun thread busy => (pump thread busy).stable rely,
                    fun call busy => (nack call busy).stable rely⟩

/-- Every careful step keeps the system sound. -/
theorem SystemSound.step {event : SnapshotEvent} (holds : SystemSound counts library system)
    (careful : Careful counts library system event)
    (here : system.step library event = some later) : SystemSound counts library later := by
  obtain ⟨sound, pump, nack⟩ := holds
  cases event with
  | stage req contents nowMs transfer choices =>
      rw [SnapshotSystem.step] at here
      split at here
      next unknown =>
        cases here
        exact SystemSound.stageSettles ⟨sound, pump, nack⟩ unknown
      next => cases here
  | pumpStarts sender nowMs =>
      rw [SnapshotSystem.step] at here
      cases idle : system.pump with
      | some thread =>
          rw [idle] at here
          cases here
      | none =>
          rw [idle] at here
          cases here
          exact SystemSound.pumpSettles nack sound (pump_safe sound)
  | pumpActs choice =>
      rw [SnapshotSystem.step] at here
      split at here
      next action next busy =>
        cases here
        have safe := pump _ busy
        rw [Careful, busy] at careful
        obtain ⟨kept, guarantee, safe⟩ := safe.step sound careful ⟨choice, rfl⟩
        exact SystemSound.pumpSettles
          (fun call busy => (nack call busy).stable (guarantee.rely sound)) kept safe
      next => cases here
  | nackArrives payload nowMs =>
      rw [SnapshotSystem.step] at here
      cases idle : system.nack with
      | some call =>
          rw [idle] at here
          cases here
      | none =>
          rw [idle] at here
          cases here
          exact SystemSound.nackSettles pump sound (onNack_safe sound)
  | nackActs choice =>
      rw [SnapshotSystem.step] at here
      split at here
      next payload action next busy =>
        cases here
        have safe := nack _ busy
        rw [Careful, busy] at careful
        obtain ⟨kept, guarantee, safe⟩ := safe.step sound careful ⟨choice, rfl⟩
        exact SystemSound.nackSettles
          (fun thread busy => (pump thread busy).stable (guarantee.rely sound)) kept safe
      next => cases here
  | restart =>
      cases here
      have first := (left sound .mainLoop).1
      exact ⟨(left first .network).1, nofun, nofun⟩

theorem systemSound_empty : SystemSound counts library .empty := by
  refine ⟨⟨fun _ => nofun, fun transfer => ?_, fun _ => nofun, fun _ _ => nofun⟩, nofun, nofun⟩
  exact .unstaged rfl (fun _ _ => rfl) nofun nofun

theorem SystemSound.run {transitions : List (Transition SnapshotSystem SnapshotEvent)}
    (run : Execution (fun system => system.step library) .empty transitions later)
    (careful : ∀ transition ∈ transitions, Careful counts library transition.before transition.event) :
    SystemSound counts library later := by
  refine run.invariant_of_past (fun _ system => SystemSound counts library system)
    (fun _ => Careful counts library) (fun holds careful here => holds.step careful here)
    systemSound_empty fun past transition rest split => careful transition (by simp [split])

/-- The transfer has been published: every chunk of the staged file, with its own bytes. -/
structure Uploaded (store : SnapshotStore) (transfer : String) (dir : TransferDir) : Prop where
  published : ∃ bytes record, store.staged.find? transfer = some bytes ∧
    dir.metaJson = .whole record ∧
    record.totalChunks = (splitChunks bytes.length bytes).length ∧
    ∀ index < record.totalChunks, ∃ message ∈ store.log,
      Delivers bytes ⟨transfer, index, 0, true⟩ message

/-- What was acknowledged as missing has been published again before a transfer rests in
`done`, and every staged transfer has a readable record. -/
structure NotLost (store : SnapshotStore) : Prop where
  republished : ∀ ask ∈ store.asks, ask.first = false →
    (store.dir? .done ask.transfer).isSome = true → store.Delivered ask
  readable : ∀ transfer, (store.staged.find? transfer).isSome = true →
    ∃ place dir record, store.dir? place transfer = some dir ∧ dir.metaJson = .whole record

end System

theorem splitChunks_two {first second : List UInt8} (full : first.length = kSnapshotChunkSize)
    (more : second ≠ []) (fits : second.length ≤ kSnapshotChunkSize) :
    splitChunks (first ++ second).length (first ++ second) = [first, second] := by
  have filled : first ≠ [] := by
    rintro rfl
    cases full
  obtain ⟨fuel, length⟩ : ∃ fuel, (first ++ second).length = fuel + 2 := by
    have := List.length_pos_iff.mpr filled
    have := List.length_pos_iff.mpr more
    exact ⟨(first ++ second).length - 2, by rw [List.length_append]; omega⟩
  have ends : splitChunks fuel [] = [] := by
    cases fuel with
    | zero => rfl
    | succ fuel => rfl
  rw [length, splitChunks, if_neg (by simp [filled]), ← full, List.take_left, List.drop_left,
    splitChunks, if_neg more, List.take_of_length_le fits, List.drop_eq_nil_of_le fits, ends]

section Samples

/-- Asks for the chunk of a transfer "t". -/
def nackText (index : String) : List UInt8 :=
  utf8 ("\x7b\"transfer_id\":\"t\",\"missing\":[" ++ index ++ "]\x7d")

def nackValue (index : UInt64) : Value :=
  .object [("transfer_id", .string "t"), ("missing", .array [.unsigned index])]

/-- The libraries on the files and texts of the samples. -/
def snapshotLibrary : SnapshotLibrary where
  sha256Hex := fun bytes =>
    if bytes = [0] then "6e340b9cffb37a989ca544e6bb780a2c78901d3fb33738768511a30617afa01d"
    else if bytes.length = kSnapshotChunkSize then
      "fa43239bcee7b97ca62f007cc68487560a39e19f74f3dde7486db3f98df8e471"
    else "d281209cc72d47b090175b22621840d9eb8267d09cc05dc122bfaa759a82830f"
  parse := fun payload =>
    if payload = nackText "0" then .ok (nackValue 0)
    else if payload = nackText "1" then .ok (nackValue 1)
    else .error (utf8 "syntax error")
  iso8601Local := fun _ => "1970-01-01T00:00:00.000+00:00"

def stageSample (bytes : List UInt8) : SnapshotEvent :=
  .stage ⟨"/log/attack.pcap", "", ""⟩ (some bytes) 0 "t" (List.replicate 6 .succeed)

def pumpSample (acts : Nat) : List SnapshotEvent :=
  .pumpStarts ⟨"caic", "d", "0x01"⟩ 0 :: List.replicate acts (.pumpActs .succeed)

def nackSample (index : String) (acts : Nat) : List SnapshotEvent :=
  .nackArrives (nackText index) 0 :: List.replicate acts (.nackActs .succeed)

abbrev snapshotRun (events : List SnapshotEvent) :
    Option (List (Transition SnapshotSystem SnapshotEvent) × SnapshotSystem) :=
  execute (fun system => system.step snapshotLibrary) .empty events

/-- The transitions of a run and where it ends. -/
def traceOf (events : List SnapshotEvent) (finishes : (snapshotRun events).isSome = true) :
    List (Transition SnapshotSystem SnapshotEvent) × SnapshotSystem :=
  (snapshotRun events).get finishes

private theorem execution_of_trace {events : List SnapshotEvent}
    (finishes : (snapshotRun events).isSome = true) :
    Execution (fun system => system.step snapshotLibrary) .empty
      (traceOf events finishes).1 (traceOf events finishes).2 :=
  execution_of_execute (Option.some_get finishes).symm

def uploadTrace :=
  traceOf (stageSample [0] :: pumpSample 9) (by decide +kernel)

/-- Asked for again after it was published, and published again. -/
def nackTrace :=
  traceOf (stageSample [0] :: pumpSample 9 ++ nackSample "0" 8 ++ pumpSample 6) (by decide +kernel)

/-- The acknowledgement is accepted after the pump has published the chunk, and before it moves
the directory to `done`. -/
def lateTrace :=
  traceOf (stageSample [0] :: pumpSample 8 ++ nackSample "0" 6 ++ [.pumpActs .succeed])
    (by decide +kernel)

/-- Two chunks. -/
def zeros : List UInt8 := List.replicate kSnapshotChunkSize 0 ++ [0]

private theorem splitChunks_zeros :
    splitChunks zeros.length zeros = [List.replicate kSnapshotChunkSize 0, [0]] :=
  splitChunks_two List.length_replicate (by simp) (by decide)

/-- How many chunks a finished transfer has, and which indices were published. -/
def finished (store : SnapshotStore) (transfer : String) : Option Nat × List (Option Nat) :=
  ((store.dir? .done transfer).map fun dir =>
      match dir.metaJson with
      | .whole record => record.totalChunks
      | _ => 0,
    store.log.map fun message =>
      match message with
      | .snapshot _ _ => none
      | .chunk _ envelope => some envelope.chunkIndex)

theorem Uploaded.indices {store : SnapshotStore} {transfer : String} {dir : TransferDir}
    {total : Nat} {indices : List (Option Nat)} (uploaded : Uploaded store transfer dir)
    (done : store.dir? .done transfer = some dir)
    (observed : finished store transfer = (some total, indices)) :
    ∀ index < total, some index ∈ indices := by
  obtain ⟨bytes, record, _, readable, _, published⟩ := uploaded
  obtain ⟨count, rfl⟩ := Prod.mk.inj observed
  rw [done, Option.map_some, readable, Option.some_inj] at count
  have count : record.totalChunks = total := count
  intro index inside
  obtain ⟨message, member, delivers⟩ := published index (by rwa [count])
  refine List.mem_map.mpr ⟨message, member, ?_⟩
  cases message with
  | snapshot topic envelope => cases delivers
  | chunk topic envelope => exact congrArg some delivers.2.1

/-- The second chunk is asked for before the first pass: the first chunk is never sent. -/
private theorem chunks_staged : ∃ staged : List UInt8 → List (List UInt8) → SnapshotSystem,
    (∀ bytes chunks, bytes ≠ [] → ¬ kSnapshotMaxFileSize < bytes.length →
      splitChunks bytes.length bytes = chunks →
      SnapshotSystem.empty.step snapshotLibrary (stageSample bytes) = some (staged bytes chunks)) ∧
      (execute (fun system => system.step snapshotLibrary)
        (staged zeros [List.replicate kSnapshotChunkSize 0, [0]])
        (nackSample "1" 6 ++ pumpSample 9)).map (fun run => finished run.2.store "t") =
        some (some 2, [none, some 1]) := by
  have fresh : SnapshotSystem.empty.store.unknown "t" = true := by decide
  refine ⟨?staged, fun bytes chunks more few split => ?_, ?_⟩
  case refine_1 =>
    simp only [stageSample, SnapshotSystem.step, SnapshotSystem.stageSettles, stageUpload,
        stagedMeta, if_neg more, if_neg few, split]
    exact if_pos fresh
  case refine_2 => decide +kernel

private theorem zeros_staged : ∃ staged,
    SnapshotSystem.empty.step snapshotLibrary (stageSample zeros) = some staged ∧
      (execute (fun system => system.step snapshotLibrary) staged
        (nackSample "1" 6 ++ pumpSample 9)).map (fun run => finished run.2.store "t") =
        some (some 2, [none, some 1]) := by
  have more : zeros ≠ [] := by simp [zeros]
  have few : ¬ kSnapshotMaxFileSize < zeros.length := by
    rw [zeros, List.length_append, List.length_replicate]
    decide
  obtain ⟨staged, stages, observed⟩ := chunks_staged
  exact ⟨_, stages zeros _ more few splitChunks_zeros, observed⟩

end Samples

end Idsm.Managerd
