import Mathlib

/-! Finite maps kept as strictly ascending entry lists. Two maps with the same
lookups are equal, so writes at different keys commute as values. -/

set_option autoImplicit false

namespace Idsm.Foundation

structure OrderedMap (κ β : Type) [LinearOrder κ] where
  entries : List (κ × β)
  ascending : entries.Pairwise fun first second => first.1 < second.1
  deriving DecidableEq

variable {κ β : Type} [LinearOrder κ]

/-- The entry of a key in an ascending list. -/
def entryOf (key : κ) : List (κ × β) → Option β
  | [] => none
  | (name, value) :: rest => if name = key then some value else entryOf key rest

/-- Put an entry at its place, over an entry with the same key. -/
def insertEntry (key : κ) (value : β) : List (κ × β) → List (κ × β)
  | [] => [(key, value)]
  | (name, old) :: rest =>
      if key < name then (key, value) :: (name, old) :: rest
      else if key = name then (key, value) :: rest
      else (name, old) :: insertEntry key value rest

@[simp] theorem entryOf_nil (key : κ) : entryOf key ([] : List (κ × β)) = none := rfl

theorem entryOf_cons (key name : κ) (value : β) (rest : List (κ × β)) :
    entryOf key ((name, value) :: rest) = if name = key then some value else entryOf key rest :=
  rfl

theorem entryOf_insertEntry (key other : κ) (value : β) (entries : List (κ × β)) :
    entryOf other (insertEntry key value entries) =
      if key = other then some value else entryOf other entries := by
  induction entries with
  | nil => simp [insertEntry, entryOf]
  | cons entry rest ih =>
      obtain ⟨name, old⟩ := entry
      rw [insertEntry]
      by_cases before : key < name
      · simp [before, entryOf]
      · by_cases same : key = name
        · subst same
          by_cases equal : key = other <;> simp [entryOf, equal]
        · by_cases equal : key = other
          · subst equal
            simp [before, same, entryOf, ih, Ne.symm same]
          · simp [before, same, entryOf, ih, equal]

theorem mem_insertEntry {key : κ} {value : β} {entry : κ × β} {entries : List (κ × β)}
    (member : entry ∈ insertEntry key value entries) : entry.1 = key ∨ entry ∈ entries := by
  induction entries with
  | nil => simp_all [insertEntry]
  | cons head rest ih =>
      obtain ⟨name, old⟩ := head
      rw [insertEntry] at member
      split_ifs at member with before same
      · rcases List.mem_cons.mp member with rfl | kept
        · exact .inl rfl
        · exact .inr kept
      · rcases List.mem_cons.mp member with rfl | kept
        · exact .inl rfl
        · exact .inr (by simp [kept])
      · rcases List.mem_cons.mp member with rfl | kept
        · exact .inr (by simp)
        · rcases ih kept with named | old'
          · exact .inl named
          · exact .inr (by simp [old'])

theorem insertEntry_ascending (key : κ) (value : β) {entries : List (κ × β)}
    (ascending : entries.Pairwise fun first second => first.1 < second.1) :
    (insertEntry key value entries).Pairwise fun first second => first.1 < second.1 := by
  induction entries with
  | nil => simp [insertEntry]
  | cons head rest ih =>
      obtain ⟨name, old⟩ := head
      obtain ⟨least, tail⟩ := List.pairwise_cons.mp ascending
      rw [insertEntry]
      split_ifs with before same
      · refine List.pairwise_cons.mpr ⟨?_, ascending⟩
        intro entry member
        rcases List.mem_cons.mp member with rfl | kept
        · exact before
        · exact before.trans (least entry kept)
      · subst same
        exact List.pairwise_cons.mpr ⟨least, tail⟩
      · refine List.pairwise_cons.mpr ⟨?_, ih tail⟩
        intro entry member
        rcases mem_insertEntry member with named | kept
        · rw [named]
          exact lt_of_le_of_ne (not_lt.mp before) (Ne.symm same)
        · exact least entry kept

theorem entryOf_eq_some_of_mem {entries : List (κ × β)}
    (ascending : entries.Pairwise fun first second => first.1 < second.1) {key : κ} {value : β}
    (member : (key, value) ∈ entries) : entryOf key entries = some value := by
  induction entries with
  | nil => simp at member
  | cons head rest ih =>
      obtain ⟨name, old⟩ := head
      obtain ⟨least, tail⟩ := List.pairwise_cons.mp ascending
      rcases List.mem_cons.mp member with equal | kept
      · cases equal
        simp [entryOf]
      · rw [entryOf, if_neg (ne_of_lt (least _ kept)), ih tail kept]

theorem mem_of_entryOf_eq_some {entries : List (κ × β)} {key : κ} {value : β}
    (found : entryOf key entries = some value) : (key, value) ∈ entries := by
  induction entries with
  | nil => simp at found
  | cons head rest ih =>
      obtain ⟨name, old⟩ := head
      rw [entryOf] at found
      split_ifs at found with same
      · cases found
        simp [same]
      · simp [ih found]

namespace OrderedMap

def empty : OrderedMap κ β := ⟨[], .nil⟩

@[simp] theorem entries_empty : (empty : OrderedMap κ β).entries = [] := rfl

def find? (map : OrderedMap κ β) (key : κ) : Option β := entryOf key map.entries

def insert (map : OrderedMap κ β) (key : κ) (value : β) : OrderedMap κ β :=
  ⟨insertEntry key value map.entries, insertEntry_ascending key value map.ascending⟩

def erase (map : OrderedMap κ β) (key : κ) : OrderedMap κ β :=
  ⟨map.entries.filter fun entry => entry.1 ≠ key, map.ascending.filter _⟩

/-- Write entries in their order, a later one over an earlier one. -/
def insertAll (map : OrderedMap κ β) : List (κ × β) → OrderedMap κ β
  | [] => map
  | (key, value) :: rest => (map.insert key value).insertAll rest

def ofList (entries : List (κ × β)) : OrderedMap κ β := empty.insertAll entries

@[simp] theorem find?_empty (key : κ) : (empty : OrderedMap κ β).find? key = none := rfl

theorem find?_insert (map : OrderedMap κ β) (key other : κ) (value : β) :
    (map.insert key value).find? other = if key = other then some value else map.find? other :=
  entryOf_insertEntry key other value map.entries

@[simp] theorem find?_insert_self (map : OrderedMap κ β) (key : κ) (value : β) :
    (map.insert key value).find? key = some value := by simp [find?_insert]

theorem find?_insert_of_ne (map : OrderedMap κ β) {key other : κ} (value : β)
    (different : key ≠ other) : (map.insert key value).find? other = map.find? other := by
  simp [find?_insert, different]

theorem find?_erase (map : OrderedMap κ β) (key other : κ) :
    (map.erase key).find? other = if key = other then none else map.find? other := by
  obtain ⟨entries, ascending⟩ := map
  simp only [find?, erase]
  clear ascending
  induction entries with
  | nil => simp
  | cons entry rest ih =>
      obtain ⟨name, value⟩ := entry
      by_cases same : name = key
      · subst same
        by_cases equal : name = other <;> simp_all [entryOf]
      · by_cases equal : name = other
        · subst equal
          simp [entryOf, same, Ne.symm same]
        · simpa [entryOf, same, equal] using ih

theorem mem_entries_iff (map : OrderedMap κ β) (key : κ) (value : β) :
    (key, value) ∈ map.entries ↔ map.find? key = some value :=
  ⟨entryOf_eq_some_of_mem map.ascending, mem_of_entryOf_eq_some⟩

/-- A map is its lookups. -/
@[ext] theorem ext {map map' : OrderedMap κ β} (same : ∀ key, map.find? key = map'.find? key) :
    map = map' := by
  obtain ⟨entries, ascending⟩ := map
  obtain ⟨entries', ascending'⟩ := map'
  have strict : ∀ first second : κ × β, first.1 < second.1 → second.1 < first.1 → first = second :=
    fun _ _ below above => absurd below (not_lt.mpr above.le)
  have irreflexive : ∀ list : List (κ × β),
      list.Pairwise (fun first second => first.1 < second.1) → list.Nodup := fun list sorted =>
    sorted.imp fun below equal => absurd (equal ▸ below) (lt_irrefl _)
  have permuted : entries.Perm entries' := by
    refine (List.perm_ext_iff_of_nodup (irreflexive _ ascending) (irreflexive _ ascending')).mpr ?_
    rintro ⟨key, value⟩
    have lookups := same key
    rw [mem_entries_iff ⟨entries, ascending⟩, mem_entries_iff ⟨entries', ascending'⟩, lookups]
  have equal : entries = entries' :=
    permuted.eq_of_pairwise (fun first second _ _ => strict first second) ascending ascending'
  subst equal
  rfl

@[simp] theorem insertAll_nil (map : OrderedMap κ β) : map.insertAll [] = map := rfl

@[simp] theorem insertAll_cons (map : OrderedMap κ β) (entry : κ × β) (rest : List (κ × β)) :
    map.insertAll (entry :: rest) = (map.insert entry.1 entry.2).insertAll rest := rfl

theorem insertAll_append (map : OrderedMap κ β) (first second : List (κ × β)) :
    map.insertAll (first ++ second) = (map.insertAll first).insertAll second := by
  induction first generalizing map with
  | nil => rfl
  | cons entry rest ih => exact ih (map.insert entry.1 entry.2)

/-- What the list writes under a key hides what the map held there. -/
theorem find?_insertAll (map : OrderedMap κ β) (entries : List (κ × β)) (key : κ) :
    (map.insertAll entries).find? key = ((ofList entries).find? key).or (map.find? key) := by
  induction entries generalizing map with
  | nil => simp [ofList]
  | cons entry rest ih =>
      have first : (ofList (entry :: rest)).find? key =
          ((ofList rest).find? key).or ((empty.insert entry.1 entry.2).find? key) :=
        ih (empty.insert entry.1 entry.2)
      rw [insertAll_cons, ih, first, find?_insert, find?_insert]
      by_cases same : entry.1 = key
      · cases (ofList rest).find? key <;> simp [same]
      · cases (ofList rest).find? key <;> simp [same]

@[simp] theorem find?_ofList_nil (key : κ) :
    (ofList ([] : List (κ × β))).find? key = none := rfl

theorem find?_ofList_cons (entry : κ × β) (rest : List (κ × β)) (key : κ) :
    (ofList (entry :: rest)).find? key =
      ((ofList rest).find? key).or (if entry.1 = key then some entry.2 else none) := by
  rw [ofList, insertAll_cons, find?_insertAll, find?_insert, find?_empty]

theorem find?_ofList_append (first second : List (κ × β)) (key : κ) :
    (ofList (first ++ second)).find? key =
      ((ofList second).find? key).or ((ofList first).find? key) := by
  rw [ofList, insertAll_append, find?_insertAll]
  rfl

/-- Entries renamed without confusing a key, and rewritten. -/
theorem find?_ofList_map {γ δ : Type} [LinearOrder γ] (rename : κ → γ) (rewrite : β → δ)
    (entries : List (κ × β)) (key : κ)
    (distinct : ∀ entry ∈ entries, rename entry.1 = rename key → entry.1 = key) :
    (ofList (entries.map fun entry => (rename entry.1, rewrite entry.2))).find? (rename key) =
      ((ofList entries).find? key).map rewrite := by
  induction entries with
  | nil => rfl
  | cons entry rest ih =>
      have later := ih fun other member => distinct other (by simp [member])
      rw [List.map_cons, find?_ofList_cons, find?_ofList_cons, later]
      by_cases same : entry.1 = key
      · cases (ofList rest).find? key <;> simp [same]
      · have apart : rename entry.1 ≠ rename key := fun equal => same (distinct entry (by simp) equal)
        cases (ofList rest).find? key <;> simp [same, apart]

theorem find?_ofList_eq_none_iff {entries : List (κ × β)} {key : κ} :
    (ofList entries).find? key = none ↔ ∀ entry ∈ entries, entry.1 ≠ key := by
  induction entries with
  | nil => simp
  | cons entry rest ih =>
      rw [find?_ofList_cons, Option.or_eq_none_iff, ih]
      by_cases same : entry.1 = key <;> simp [same]

theorem mem_of_find?_ofList {entries : List (κ × β)} {key : κ} {value : β}
    (found : (ofList entries).find? key = some value) : (key, value) ∈ entries := by
  induction entries with
  | nil => simp at found
  | cons entry rest ih =>
      rw [find?_ofList_cons, Option.or_eq_some_iff] at found
      rcases found with later | ⟨_, here⟩
      · exact List.mem_cons_of_mem _ (ih later)
      · split_ifs at here with same
        cases here
        simp [← same]

theorem find?_ofList_iff_mem {entries : List (κ × β)} (distinct : (entries.map Prod.fst).Nodup)
    {key : κ} {value : β} : (ofList entries).find? key = some value ↔ (key, value) ∈ entries := by
  refine ⟨mem_of_find?_ofList, fun member => ?_⟩
  induction entries with
  | nil => cases member
  | cons entry rest ih =>
      obtain ⟨fresh, later⟩ := List.nodup_cons.mp distinct
      rw [find?_ofList_cons]
      rcases List.mem_cons.mp member with rfl | behind
      · have absent : (ofList rest).find? key = none := by
          refine find?_ofList_eq_none_iff.mpr fun other listed same => ?_
          have named := List.mem_map_of_mem (f := Prod.fst) listed
          rw [same] at named
          exact fresh named
        simp [absent]
      · rw [ih later behind, Option.some_or]

/-- The order of entries with distinct keys does not matter. -/
theorem ofList_perm {entries entries' : List (κ × β)} (distinct : (entries.map Prod.fst).Nodup)
    (perm : entries.Perm entries') : ofList entries = ofList entries' := by
  ext key value
  rw [find?_ofList_iff_mem distinct, find?_ofList_iff_mem ((perm.map Prod.fst).nodup_iff.mp distinct),
    perm.mem_iff]

/-- Ascending entries are kept as they are. -/
theorem entries_ofList {entries : List (κ × β)}
    (ascending : entries.Pairwise fun first second => first.1 < second.1) :
    (ofList entries).entries = entries := by
  have lookups : ∀ key, (ofList entries).find? key = entryOf key entries := by
    intro key
    induction entries with
    | nil => rfl
    | cons entry rest ih =>
        obtain ⟨name, value⟩ := entry
        obtain ⟨least, tail⟩ := List.pairwise_cons.mp ascending
        rw [find?_ofList_cons, ih tail, entryOf_cons]
        by_cases same : name = key
        · subst same
          have absent : entryOf name rest = none := by
            rw [← ih tail, find?_ofList_eq_none_iff]
            exact fun other member => (least other member).ne'
          simp [absent]
        · simp [same]
  have equal : ofList entries = ⟨entries, ascending⟩ := ext lookups
  rw [equal]

/-- Maps with the same keys have matching entries. -/
theorem forall₂_entries {γ : Type} {related : κ × β → κ × γ → Prop} (map : OrderedMap κ β)
    (map' : OrderedMap κ γ)
    (keys : ∀ key, (map.find? key).isSome = (map'.find? key).isSome)
    (values : ∀ key value value', map.find? key = some value → map'.find? key = some value' →
      related (key, value) (key, value')) :
    List.Forall₂ related map.entries map'.entries := by
  have listed : ∀ {ω : Type} (map : OrderedMap κ ω) (key : κ),
      key ∈ map.entries.map Prod.fst ↔ (map.find? key).isSome = true := by
    intro ω map key
    rw [Option.isSome_iff_exists]
    constructor
    · intro member
      obtain ⟨⟨name, value⟩, found, rfl⟩ := List.mem_map.mp member
      exact ⟨value, (mem_entries_iff map name value).mp found⟩
    · rintro ⟨value, found⟩
      exact List.mem_map.mpr ⟨(key, value), (mem_entries_iff map key value).mpr found, rfl⟩
  have sorted : ∀ {ω : Type} (map : OrderedMap κ ω),
      (map.entries.map Prod.fst).Pairwise (· < ·) := fun map =>
    List.pairwise_map.mpr map.ascending
  have names : map.entries.map Prod.fst = map'.entries.map Prod.fst := by
    refine ((List.perm_ext_iff_of_nodup ((sorted map).imp ne_of_lt)
      ((sorted map').imp ne_of_lt)).mpr fun key => ?_).eq_of_pairwise
        (fun _ _ _ _ below above => absurd below (not_lt.mpr above.le)) (sorted map) (sorted map')
    rw [listed, listed, keys]
  rw [List.forall₂_iff_get]
  have length : map.entries.length = map'.entries.length := by
    simpa using congrArg List.length names
  refine ⟨length, fun index first second => ?_⟩
  have same : (map.entries[index]).1 = (map'.entries[index]).1 := by
    have read := congrArg (fun list : List κ => list[index]?) names
    simpa [first, second] using read
  have here := (mem_entries_iff map _ _).mp (List.getElem_mem first)
  have there := (mem_entries_iff map' _ _).mp (List.getElem_mem second)
  have pair := values _ _ _ here (same ▸ there)
  simp only [List.get_eq_getElem]
  rw [show map'.entries[index] = ((map.entries[index]).1, (map'.entries[index]).2) from
    Prod.ext same.symm rfl]
  exact pair

end OrderedMap

end Idsm.Foundation
