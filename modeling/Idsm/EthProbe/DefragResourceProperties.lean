import Idsm.EthProbe.IpDefragProperties
import Idsm.Foundation.Pool

/-! What the table of unfinished datagrams holds, and what its memory counter is charged, over any
sequence of fragments and expiries. -/

set_option autoImplicit false

namespace Idsm.EthProbe

open Idsm.Foundation

inductive DefragEvent where
  | fragment (pp : ParsedPacket) (payload : List UInt8) (nowMs : UInt64)
  | expire (nowMs : UInt64)

namespace IpDefrag

def step (cfg : DefragConfig) (state : IpDefrag) : DefragEvent → IpDefrag
  | .fragment pp payload nowMs => (addFragment cfg state pp payload nowMs).1
  | .expire nowMs => (state.expire cfg.timeoutMs nowMs).1

section Ledger

variable (cfg : DefragConfig)

def releaseAt (state : IpDefrag) (key : FragKey) : Pool.Entry :=
  .release (Pool.weightAt Datagram.accounted state.table key)

/-- What the evictions of `makeRoom` take off the counter. -/
def roomEntries : (fuel : Nat) → IpDefrag → List Pool.Entry
  | 0, _ => []
  | fuel + 1, state =>
      if cfg.maxDatagrams ≤ state.table.length then
        match state.lru with
        | [] => []
        | victim :: _ => state.releaseAt victim :: roomEntries fuel (state.erase victim)
      else []

/-- What the evictions of `makeSpace` take off the counter. -/
def spaceEntries (key : FragKey) (grow : Nat) : (fuel : Nat) → IpDefrag → List Pool.Entry
  | 0, _ => []
  | fuel + 1, state =>
      if cfg.maxMemBytes < state.memUsed + grow ∧ state.lru.head? ≠ some key then
        match state.lru with
        | [] => []
        | victim :: _ => state.releaseAt victim :: spaceEntries key grow fuel (state.erase victim)
      else []

/-- A fragment that grows its datagram is charged, and a complete datagram is given back. -/
def feedEntries (state : IpDefrag) (dg : Datagram) (off : Nat) (data : List UInt8)
    (more : Bool) : List Pool.Entry :=
  let grow := dg.grow off data.length
  if 0 < grow ∧ cfg.maxMemBytes < state.memUsed + grow then []
  else
    let dg := dg.put off data more
    .charge grow :: if dg.complete then [.release dg.accounted] else []

def eraseEntries : List (FragKey × Datagram) → IpDefrag → List Pool.Entry
  | [], _ => []
  | entry :: rest, state => state.releaseAt entry.1 :: eraseEntries rest (state.erase entry.1)

/-- Every change of the counter in one step, in the order of the source. -/
def entries (state : IpDefrag) : DefragEvent → List Pool.Entry
  | .fragment pp payload nowMs =>
      if payload = [] ∨ maxDatagramLen ≤ pp.fragOffset then []
      else
        let data := payload.take (fragLen pp.fragOffset payload.length)
        let key := pp.fragKey
        let opened := (state.openEntry cfg key).1
        let dg := ((opened.find key).getD .fresh).seen nowMs
        let entered := (opened.setDatagram key dg).touch key
        let grow := dg.grow pp.fragOffset data.length
        (if (state.find key).isNone then roomEntries cfg state.lru.length state else []) ++
          (if 0 < grow then spaceEntries cfg key grow entered.lru.length entered else []) ++
          feedEntries cfg (entered.openMemory cfg key grow).1 dg pp.fragOffset data pp.fragMore
  | .expire nowMs =>
      eraseEntries (state.table.filter fun entry => cfg.timeoutMs ≤ nowMs - entry.2.lastSeenMs) state

end Ledger

/-- The pool is right, and each datagram is charged for its buffer. -/
structure Accounted (cfg : DefragConfig) (state : IpDefrag) : Prop where
  account : Pool.Account Datagram.accounted cfg.maxMemBytes (max 1 cfg.maxDatagrams) state.table
    state.lru state.memUsed
  sized : ∀ entry ∈ state.table, entry.2.accounted = entry.2.buf.length

theorem accounted_empty (cfg : DefragConfig) : Accounted cfg .empty where
  account := .empty
  sized _ member := nomatch member

/-- A part of a step, with what it does to the counter. -/
structure Moves (cfg : DefragConfig) (state : IpDefrag) (entries : List Pool.Entry)
    (after : IpDefrag) : Prop where
  accounted : Accounted cfg after
  settles : Pool.Settles cfg.maxMemBytes state.memUsed entries after.memUsed

variable {cfg : DefragConfig} {state middle after : IpDefrag} {key other : FragKey} {dg : Datagram}
  {first second : List Pool.Entry}

theorem Moves.trans (moved : Moves cfg state first middle) (later : Moves cfg middle second after) :
    Moves cfg state (first ++ second) after where
  accounted := later.accounted
  settles := moved.settles.append later.settles

theorem Accounted.stays (accounted : Accounted cfg state) : Moves cfg state [] state where
  accounted := accounted
  settles := .done _

theorem Accounted.erases (accounted : Accounted cfg state) (key : FragKey) :
    Moves cfg state [state.releaseAt key] (state.erase key) where
  settles := .one_release (accounted.account.releasable key)
  accounted := ⟨accounted.account.erase key,
    fun entry member => accounted.sized entry (List.mem_filter.1 member).1⟩

theorem evictOne_eq {victim : FragKey} {rest : List FragKey} (order : state.lru = victim :: rest) :
    state.evictOne = some (state.erase victim) := by
  rw [evictOne, order]

theorem length_erase_lru {victim : FragKey} {rest : List FragKey}
    (order : state.lru = victim :: rest) : (state.erase victim).lru = rest := by
  change state.lru.erase victim = rest
  rw [order, List.erase_cons_head]

/-- The loop of evictions ends with room for an entry. -/
theorem Accounted.makesRoom {fuel : Nat} (accounted : Accounted cfg state)
    (enough : state.lru.length ≤ fuel) (absent : state.find key = none) :
    Moves cfg state (roomEntries cfg fuel state) (state.makeRoom cfg.maxDatagrams fuel).1 ∧
      (state.makeRoom cfg.maxDatagrams fuel).1.table.length < max 1 cfg.maxDatagrams ∧
      (state.makeRoom cfg.maxDatagrams fuel).1.find key = none := by
  induction fuel generalizing state with
  | zero =>
      have same := accounted.account.length
      exact ⟨accounted.stays, by change state.table.length < _; omega, absent⟩
  | succ fuel ih =>
      rw [roomEntries, makeRoom]
      by_cases full : cfg.maxDatagrams ≤ state.table.length
      · rw [if_pos full, if_pos full]
        cases order : state.lru with
        | nil =>
            have same := accounted.account.length
            rw [order, List.length_nil] at same
            rw [evictOne, order]
            exact ⟨accounted.stays, by change state.table.length < _; omega, absent⟩
        | cons victim rest =>
            rw [evictOne_eq order]
            rw [order, List.length_cons] at enough
            have fewer : (state.erase victim).lru.length ≤ fuel := by
              rw [length_erase_lru order]
              exact Nat.le_of_succ_le_succ enough
            have gone : (state.erase victim).find key = none := by
              rw [find_erase, absent, ite_self]
            have erased := accounted.erases victim
            obtain ⟨moved, room, still⟩ := ih erased.accounted fewer gone
            exact ⟨erased.trans moved, room, still⟩
      · rw [if_neg full, if_neg full]
        exact ⟨accounted.stays, by change state.table.length < _; omega, absent⟩

/-- The loop of evictions leaves the entry that is fed. -/
theorem Accounted.makesSpace {fuel grow : Nat} (accounted : Accounted cfg state)
    (found : state.find key = some dg) :
    Moves cfg state (spaceEntries cfg key grow fuel state)
        (state.makeSpace cfg.maxMemBytes key grow fuel).1 ∧
      (state.makeSpace cfg.maxMemBytes key grow fuel).1.find key = some dg := by
  induction fuel generalizing state with
  | zero => exact ⟨accounted.stays, found⟩
  | succ fuel ih =>
      rw [spaceEntries, makeSpace]
      by_cases tight : cfg.maxMemBytes < state.memUsed + grow ∧ state.lru.head? ≠ some key
      · rw [if_pos tight, if_pos tight]
        cases order : state.lru with
        | nil =>
            rw [evictOne, order]
            exact ⟨accounted.stays, found⟩
        | cons victim rest =>
            rw [evictOne_eq order]
            have apart : key ≠ victim := by
              intro same
              rw [order, same] at tight
              exact tight.2 rfl
            have kept : (state.erase victim).find key = some dg := by
              rw [find_erase, if_neg apart, found]
            have erased := accounted.erases victim
            obtain ⟨moved, still⟩ := ih erased.accounted kept
            exact ⟨erased.trans moved, still⟩
      · rw [if_neg tight, if_neg tight]
        exact ⟨accounted.stays, found⟩

section Fed

/-- The datagram is charged for its buffer. -/
def Sized (dg : Datagram) : Prop := dg.accounted = dg.buf.length

theorem Accounted.sized_at (accounted : Accounted cfg state) (found : state.find key = some dg) :
    Sized dg :=
  accounted.sized (key, dg) (Pool.mem_of_lookup found)

theorem sized_put {off : Nat} {data : List UInt8} {more : Bool} (sized : Sized dg) :
    Sized (dg.put off data more) := by
  have reaches : off + data.length ≤
      (dg.buf ++ List.replicate (dg.grow off data.length) 0).length := by
    rw [List.length_append, List.length_replicate, Datagram.grow]
    omega
  change dg.accounted + dg.grow off data.length =
    (fillGaps off data dg.covered (dg.buf ++ List.replicate (dg.grow off data.length) 0)).length
  rw [fillGaps, length_copyGaps reaches, List.length_append, List.length_replicate, sized]

theorem Accounted.sized_setDatagram (accounted : Accounted cfg state) (sized : Sized dg) :
    ∀ entry ∈ (state.setDatagram key dg).table, entry.2.accounted = entry.2.buf.length := by
  intro entry member
  cases List.mem_append.1 member with
  | inl old => exact accounted.sized entry (List.mem_filter.1 old).1
  | inr new =>
      rw [List.mem_singleton.1 new]
      exact sized

theorem weightAt_of_find (found : state.find key = some dg) :
    Pool.weightAt Datagram.accounted state.table key = dg.accounted := by
  change ((state.find key).map Datagram.accounted).getD 0 = dg.accounted
  rw [found]
  rfl

/-- The datagram of a fragment comes into the table or is touched; nothing is charged yet. -/
theorem Accounted.enters (nowMs : UInt64) (accounted : Accounted cfg state)
    (room : state.find key = none → state.table.length < max 1 cfg.maxDatagrams)
    (seen : dg = ((state.find key).getD .fresh).seen nowMs) :
    Accounted cfg ((state.setDatagram key dg).touch key) := by
  have same : dg.accounted = Pool.weightAt Datagram.accounted state.table key ∧ Sized dg := by
    cases found : state.find key with
    | none =>
        rw [found] at seen
        change _ = ((state.find key).map Datagram.accounted).getD 0 ∧ _
        rw [found, seen]
        exact ⟨rfl, rfl⟩
    | some before =>
        rw [found] at seen
        rw [weightAt_of_find found, seen]
        have sized : Sized before := accounted.sized_at found
        exact ⟨rfl, sized⟩
  exact ⟨accounted.account.use same.1 room, accounted.sized_setDatagram same.2⟩

/-- A fragment that fits is charged before it is copied; a datagram that is complete is given
back with all that it was charged. -/
theorem Accounted.feeds {off : Nat} {data : List UInt8} {more evicted : Bool}
    (accounted : Accounted cfg state) (found : state.find key = some dg) :
    Moves cfg state (feedEntries cfg state dg off data more)
      (state.feedDatagram cfg key dg off data more evicted).1 := by
  have sized := accounted.sized_at found
  have weight := weightAt_of_find found
  rw [feedEntries, feedDatagram]
  dsimp only
  by_cases tight : 0 < dg.grow off data.length ∧
      cfg.maxMemBytes < state.memUsed + dg.grow off data.length
  · rw [if_pos tight, if_pos tight]
    by_cases fresh : dg.accounted = 0
    · rw [if_pos fresh]
      have erased := (accounted.erases key).accounted
      have kept : (state.erase key).memUsed = state.memUsed := by
        change state.memUsed - Pool.weightAt Datagram.accounted state.table key = _
        rw [weight, fresh, Nat.sub_zero]
      exact ⟨erased, kept ▸ .done _⟩
    · rw [if_neg fresh]
      exact accounted.stays
  · rw [if_neg tight, if_neg tight]
    have room : state.memUsed + dg.grow off data.length ≤ cfg.maxMemBytes := by
      have within := accounted.account.within
      omega
    have charged : Moves cfg state [.charge (dg.grow off data.length)]
        { state.setDatagram key (dg.put off data more) with
          memUsed := state.memUsed + dg.grow off data.length } := by
      refine ⟨⟨accounted.account.replace found ?_ room,
        accounted.sized_setDatagram (sized_put sized)⟩, .one_charge room⟩
      change state.memUsed + dg.grow off data.length + dg.accounted =
        state.memUsed + (dg.accounted + dg.grow off data.length)
      omega
    cases complete : (dg.put off data more).complete with
    | false =>
        rw [if_neg Bool.false_ne_true, if_neg Bool.false_ne_true]
        exact charged
    | true =>
        rw [if_pos rfl, if_pos rfl]
        have here := @find_setDatagram_self state key (dg.put off data more)
        have erased := charged.accounted.erases key
        rw [releaseAt, weightAt_of_find here] at erased
        exact charged.trans erased

end Fed

theorem Accounted.expires {old : List (FragKey × Datagram)} (accounted : Accounted cfg state) :
    Moves cfg state (eraseEntries old state)
      (old.foldl (fun state entry => state.erase entry.1) state) := by
  induction old generalizing state with
  | nil => exact accounted.stays
  | cons entry old ih =>
      have erased := accounted.erases entry.1
      exact erased.trans (ih erased.accounted)

theorem Accounted.opens (accounted : Accounted cfg state) :
    Moves cfg state
        (if (state.find key).isNone then roomEntries cfg state.lru.length state else [])
        (state.openEntry cfg key).1 ∧
      ((state.openEntry cfg key).1.find key = none →
        (state.openEntry cfg key).1.table.length < max 1 cfg.maxDatagrams) := by
  rw [openEntry]
  cases found : state.find key with
  | none =>
      rw [Option.isNone_none, if_pos rfl, if_pos rfl]
      obtain ⟨moved, room, _⟩ := accounted.makesRoom (Nat.le_refl _) found
      exact ⟨moved, fun _ => room⟩
  | some dg =>
      rw [Option.isNone_some, if_neg Bool.false_ne_true, if_neg Bool.false_ne_true]
      refine ⟨accounted.stays, fun absent => ?_⟩
      rw [found] at absent
      cases absent

theorem Accounted.opensMemory (grow : Nat) (accounted : Accounted cfg state)
    (found : state.find key = some dg) :
    Moves cfg state (if 0 < grow then spaceEntries cfg key grow state.lru.length state else [])
        (state.openMemory cfg key grow).1 ∧
      (state.openMemory cfg key grow).1.find key = some dg := by
  rw [openMemory]
  by_cases grows : 0 < grow
  · rw [if_pos grows, if_pos grows]
    exact accounted.makesSpace found
  · rw [if_neg grows, if_neg grows]
    exact ⟨accounted.stays, found⟩

/-- One step keeps the account, and each change of the counter is covered. -/
theorem Accounted.step (accounted : Accounted cfg state) (event : DefragEvent) :
    Moves cfg state (entries cfg state event) (state.step cfg event) := by
  cases event with
  | expire nowMs => exact accounted.expires
  | fragment pp payload nowMs =>
      rw [IpDefrag.step, addFragment, entries]
      by_cases ignored : payload = [] ∨ maxDatagramLen ≤ pp.fragOffset
      · rw [if_pos ignored, if_pos ignored]
        exact accounted.stays
      · rw [if_neg ignored, if_neg ignored]
        obtain ⟨opened, room⟩ := @Accounted.opens cfg state pp.fragKey accounted
        have entered := opened.accounted.enters nowMs room rfl
        have spaced := fun grow => entered.opensMemory grow find_setDatagram_self
        have free := fun grow => opened.trans ⟨(spaced grow).1.accounted, (spaced grow).1.settles⟩
        exact (free _).trans ((spaced _).1.accounted.feeds (spaced _).2)

/-- The state after any fragments and expiries. -/
def runAfter (cfg : DefragConfig) (events : List DefragEvent) : IpDefrag :=
  events.foldl (step cfg) .empty

theorem runAfter_concat (cfg : DefragConfig) (events : List DefragEvent) (event : DefragEvent) :
    runAfter cfg (events ++ [event]) = (runAfter cfg events).step cfg event := by
  rw [runAfter, List.foldl_append, List.foldl_cons, List.foldl_nil]
  rfl

theorem accounted_after (cfg : DefragConfig) (events : List DefragEvent) :
    Accounted cfg (runAfter cfg events) := by
  induction events using List.reverseRecOn with
  | nil => exact accounted_empty cfg
  | append_singleton events event ih =>
      rw [runAfter_concat]
      exact (ih.step event).accounted

/-- In every reachable state the account is right, and the next step charges the counter within
its cap and takes off it only what is there. -/
theorem defrag_resources (cfg : DefragConfig) (events : List DefragEvent) :
    Accounted cfg (runAfter cfg events) ∧
      ∀ event, Pool.Settles cfg.maxMemBytes (runAfter cfg events).memUsed
        (entries cfg (runAfter cfg events) event) (runAfter cfg (events ++ [event])).memUsed := by
  have accounted := accounted_after cfg events
  refine ⟨accounted, fun event => ?_⟩
  rw [runAfter_concat]
  exact (accounted.step event).settles

end IpDefrag

end Idsm.EthProbe
