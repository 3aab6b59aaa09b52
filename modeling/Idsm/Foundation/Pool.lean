import Mathlib

/-! A table with unique keys, the order in which the keys were used last, and the counter that
the values are charged to. -/

set_option autoImplicit false

namespace Idsm.Foundation.Pool

section Counter

/-- What a step does to a counter. -/
inductive Entry where
  | charge (amount : Nat)
  | release (amount : Nat)
  deriving DecidableEq, Repr

/-- Each amount goes in below the cap and comes out only when it is there. -/
inductive Settles (cap : Nat) : Nat → List Entry → Nat → Prop where
  | done (counter : Nat) : Settles cap counter [] counter
  | charge {counter amount last : Nat} {rest : List Entry} (room : counter + amount ≤ cap)
      (later : Settles cap (counter + amount) rest last) :
      Settles cap counter (.charge amount :: rest) last
  | release {counter amount last : Nat} {rest : List Entry} (there : amount ≤ counter)
      (later : Settles cap (counter - amount) rest last) :
      Settles cap counter (.release amount :: rest) last

variable {cap first middle last amount : Nat} {entries more : List Entry}

theorem Settles.append (settled : Settles cap first entries middle)
    (later : Settles cap middle more last) : Settles cap first (entries ++ more) last := by
  induction settled with
  | done => exact later
  | charge room _ ih => exact .charge room (ih later)
  | release there _ ih => exact .release there (ih later)

theorem Settles.one_release (there : amount ≤ first) :
    Settles cap first [.release amount] (first - amount) :=
  .release there (.done _)

theorem Settles.one_charge (room : first + amount ≤ cap) :
    Settles cap first [.charge amount] (first + amount) :=
  .charge room (.done _)

/-- Many releases come to one. -/
theorem Settles.releases {amounts : List Nat} (there : amounts.sum ≤ first) :
    Settles cap first (amounts.map .release) (first - amounts.sum) := by
  induction amounts generalizing first with
  | nil => exact .done first
  | cons amount amounts ih =>
      rw [List.sum_cons] at there ⊢
      rw [← Nat.sub_sub]
      exact .release (Nat.le_of_add_right_le there) (ih (Nat.le_sub_of_add_le' there))

/-- A counter that starts within its cap stays there. -/
theorem Settles.le_cap (settled : Settles cap first entries last) (within : first ≤ cap) :
    last ≤ cap := by
  induction settled with
  | done => exact within
  | charge room _ ih => exact ih room
  | release _ _ ih => exact ih (Nat.le_trans (Nat.sub_le _ _) within)

end Counter

section Tables

variable {κ β : Type} {table : List (κ × β)} {weight : β → Nat} {key : κ} {value : β}

def keys (table : List (κ × β)) : List κ := table.map Prod.fst

def total (weight : β → Nat) (table : List (κ × β)) : Nat :=
  (table.map fun entry => weight entry.2).sum

theorem total_append (first second : List (κ × β)) :
    total weight (first ++ second) = total weight first + total weight second := by
  rw [total, List.map_append, List.sum_append]
  rfl

theorem total_singleton : total weight [(key, value)] = weight value := by
  rw [total, List.map_singleton, List.sum_singleton]

/-- The keys are unique, and each stands in the order once. -/
structure Listed (table : List (κ × β)) (order : List κ) : Prop where
  unique : (keys table).Nodup
  order : order.Perm (keys table)

theorem Listed.empty : Listed ([] : List (κ × β)) [] := ⟨.nil, .nil⟩

variable {order : List κ} {cap limit counter : Nat}

/-- The counter is the weight of the table, within its cap, and the table is within its limit. -/
structure Account (weight : β → Nat) (cap limit : Nat) (table : List (κ × β)) (order : List κ)
    (counter : Nat) : Prop where
  listed : Listed table order
  charged : counter = total weight table
  within : counter ≤ cap
  bounded : table.length ≤ limit

theorem Account.empty : Account weight cap limit ([] : List (κ × β)) [] 0 :=
  ⟨.empty, rfl, Nat.zero_le _, Nat.zero_le _⟩

theorem Account.length (account : Account weight cap limit table order counter) :
    order.length = table.length := by
  rw [account.listed.order.length_eq, keys, List.length_map]

end Tables

section Entries

variable {κ β : Type} [DecidableEq κ] {table : List (κ × β)} {order : List κ} {key : κ}
  {value : β} {weight : β → Nat}

def lookup (table : List (κ × β)) (key : κ) : Option β :=
  (table.find? fun entry => entry.1 = key).map Prod.snd

def without (table : List (κ × β)) (key : κ) : List (κ × β) :=
  table.filter fun entry => entry.1 ≠ key

/-- What an entry that may be missing weighs. -/
def weightAt (weight : β → Nat) (table : List (κ × β)) (key : κ) : Nat :=
  ((lookup table key).map weight).getD 0

theorem mem_of_lookup (found : lookup table key = some value) : (key, value) ∈ table := by
  obtain ⟨entry, first, rfl⟩ := Option.map_eq_some_iff.1 found
  have same : entry.1 = key := by simpa using List.find?_some first
  subst same
  exact List.mem_of_find?_eq_some first

theorem lookup_eq_none : lookup table key = none ↔ key ∉ keys table := by
  rw [lookup, Option.map_eq_none_iff, List.find?_eq_none, keys, List.mem_map]
  constructor
  · rintro absent ⟨entry, member, rfl⟩
    exact absent entry member (decide_eq_true rfl)
  · intro absent entry member same
    exact absent ⟨entry, member, of_decide_eq_true same⟩

theorem without_of_absent (absent : key ∉ keys table) : without table key = table := by
  apply List.filter_eq_self.2
  intro entry member
  exact decide_eq_true fun same => absent (same ▸ List.mem_map_of_mem member)

theorem keys_without : keys (without table key) = (keys table).filter fun name => name ≠ key := by
  rw [keys, without, keys, List.filter_map]
  rfl

theorem not_mem_keys_without : key ∉ keys (without table key) := by
  rw [keys_without, List.mem_filter]
  exact fun member => of_decide_eq_true member.2 rfl

/-- A table is the entry of a key and the rest. -/
theorem perm_without (unique : (keys table).Nodup) (found : lookup table key = some value) :
    table.Perm ((key, value) :: without table key) := by
  induction table with
  | nil => cases found
  | cons entry rest ih =>
      rw [keys, List.map_cons, List.nodup_cons] at unique
      by_cases here : entry.1 = key
      · subst here
        rw [lookup, List.find?_cons_of_pos (by simp)] at found
        obtain rfl := Option.some.inj found
        have rest_same := without_of_absent unique.1
        rw [without, List.filter_cons_of_neg (by simp)]
        rw [without] at rest_same
        rw [rest_same]
      · rw [lookup, List.find?_cons_of_neg (by simpa using here)] at found
        rw [without, List.filter_cons_of_pos (by simpa using here)]
        exact ((ih unique.2 found).cons entry).trans (.swap (key, value) entry _)

theorem total_without (weight : β → Nat) (key : κ) (unique : (keys table).Nodup) :
    total weight (without table key) + weightAt weight table key = total weight table := by
  cases found : lookup table key with
  | none =>
      rw [without_of_absent (lookup_eq_none.1 found), weightAt, found]
      rfl
  | some value =>
      have same := ((perm_without unique found).map fun entry => weight entry.2).sum_eq
      rw [List.map_cons, List.sum_cons] at same
      rw [total, total, weightAt, found, same, Nat.add_comm]
      rfl

theorem length_without (unique : (keys table).Nodup) (found : lookup table key = some value) :
    (without table key).length + 1 = table.length := by
  have same := (perm_without unique found).length_eq
  rw [List.length_cons] at same
  exact same.symm

/-- An entry leaves the table and the order. -/
theorem Listed.erase (listed : Listed table order) (key : κ) :
    Listed (without table key) (order.erase key) where
  unique := by
    rw [keys_without]
    exact listed.unique.filter _
  order := by
    have erased := listed.unique.erase_eq_filter key
    rw [keys_without]
    have same : (keys table).filter (fun name => decide (name ≠ key)) = (keys table).erase key := by
      rw [erased]
      apply List.filter_congr
      intro name _
      by_cases equal : name = key
      · simp [equal]
      · simp [equal]
    rw [same]
    exact listed.order.erase key

/-- An entry comes in or is replaced, and is the one used last. -/
theorem Listed.use (listed : Listed table order) (key : κ) (value : β) :
    Listed (without table key ++ [(key, value)]) (order.erase key ++ [key]) where
  unique := by
    rw [keys, List.map_append, List.nodup_append]
    refine ⟨(listed.erase key).unique, List.nodup_singleton _, ?_⟩
    intro name member last same
    rw [List.map_singleton, List.mem_singleton] at same
    exact fun equal => not_mem_keys_without (same ▸ equal ▸ member)
  order := by
    rw [keys, List.map_append]
    exact (listed.erase key).order.append_right [key]

/-- The value of an entry changes. -/
theorem Listed.replace {before : β} (listed : Listed table order)
    (found : lookup table key = some before) (value : β) :
    Listed (without table key ++ [(key, value)]) order where
  unique := (listed.use key value).unique
  order := by
    have rest := (perm_without listed.unique found).map Prod.fst
    rw [keys, List.map_append]
    exact listed.order.trans (rest.trans (List.perm_append_singleton key _).symm)

section Account

variable {cap limit counter : Nat}

theorem Account.releasable (account : Account weight cap limit table order counter) (key : κ) :
    weightAt weight table key ≤ counter := by
  rw [account.charged, ← total_without weight key account.listed.unique]
  exact Nat.le_add_left _ _

/-- An entry leaves with its weight. -/
theorem Account.erase (account : Account weight cap limit table order counter) (key : κ) :
    Account weight cap limit (without table key) (order.erase key)
      (counter - weightAt weight table key) where
  listed := account.listed.erase key
  charged := by
    have parts := total_without weight key account.listed.unique
    rw [← account.charged] at parts
    exact Nat.sub_eq_of_eq_add parts.symm
  within := Nat.le_trans (Nat.sub_le _ _) account.within
  bounded := Nat.le_trans (List.length_filter_le _ _) account.bounded

/-- An entry comes in or changes, and the counter follows. -/
theorem Account.put {after : List κ} {next : Nat}
    (account : Account weight cap limit table order counter)
    (listed : Listed (without table key ++ [(key, value)]) after)
    (follows : next + weightAt weight table key = counter + weight value) (within : next ≤ cap)
    (room : lookup table key = none → table.length < limit) :
    Account weight cap limit (without table key ++ [(key, value)]) after next where
  listed := listed
  charged := by
    have parts := total_without weight key account.listed.unique
    rw [← account.charged] at parts
    rw [total_append, total_singleton]
    omega
  within := within
  bounded := by
    rw [List.length_append, List.length_singleton]
    cases found : lookup table key with
    | none => exact Nat.lt_of_le_of_lt (List.length_filter_le _ _) (room found)
    | some before =>
        rw [length_without account.listed.unique found]
        exact account.bounded

/-- An entry that weighs what it weighed is the one used last. -/
theorem Account.use (account : Account weight cap limit table order counter)
    (same : weight value = weightAt weight table key)
    (room : lookup table key = none → table.length < limit) :
    Account weight cap limit (without table key ++ [(key, value)]) (order.erase key ++ [key])
      counter :=
  account.put (account.listed.use key value) (congrArg _ same.symm) account.within room

/-- The value of an entry changes, and the counter follows. -/
theorem Account.replace {before : β} {next : Nat}
    (account : Account weight cap limit table order counter)
    (found : lookup table key = some before)
    (follows : next + weight before = counter + weight value) (within : next ≤ cap) :
    Account weight cap limit (without table key ++ [(key, value)]) order next := by
  have weighed : weightAt weight table key = weight before := by
    rw [weightAt, found]
    rfl
  refine account.put (account.listed.replace found value) (weighed ▸ follows) within ?_
  intro absent
  rw [found] at absent
  cases absent

end Account

end Entries

end Idsm.Foundation.Pool
