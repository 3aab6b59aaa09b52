import Mathlib

/-! Tries that hold prefixes of keys. -/

set_option autoImplicit false

namespace Idsm.Foundation

inductive PrefixTrie (α : Type) where
  | absent
  | node (terminal : Bool) (child : α → PrefixTrie α)

namespace PrefixTrie

variable {α : Type}

def terminal : PrefixTrie α → Bool
  | absent => false
  | node terminal _ => terminal

def child : PrefixTrie α → α → PrefixTrie α
  | absent, _ => absent
  | node _ child, step => child step

/-- Nodes are made where the path leaves the trie. -/
def insert [DecidableEq α] (trie : PrefixTrie α) : List α → PrefixTrie α
  | [] => node true trie.child
  | step :: path =>
      node trie.terminal (Function.update trie.child step ((trie.child step).insert path))

/-- The walk along the key ends early at a terminal node. -/
def contains (trie : PrefixTrie α) : List α → Bool
  | [] => trie.terminal
  | step :: key => trie.terminal || (trie.child step).contains key

theorem contains_of_terminal {trie : PrefixTrie α} (ends : trie.terminal = true) (key : List α) :
    trie.contains key = true := by
  cases key with
  | nil => exact ends
  | cons step key => rw [contains, ends, Bool.true_or]

theorem contains_absent (key : List α) : (absent : PrefixTrie α).contains key = false := by
  induction key with
  | nil => rfl
  | cons step key ih => exact ih

theorem contains_fresh (key : List α) :
    (node false fun _ => (absent : PrefixTrie α)).contains key = false := by
  cases key with
  | nil => rfl
  | cons step key => exact contains_absent key

variable [DecidableEq α]

theorem terminal_insert (trie : PrefixTrie α) (step : α) (path : List α) :
    (trie.insert (step :: path)).terminal = trie.terminal := rfl

theorem child_insert (trie : PrefixTrie α) (step : α) (path : List α) :
    (trie.insert (step :: path)).child =
      Function.update trie.child step ((trie.child step).insert path) := rfl

theorem contains_insert (trie : PrefixTrie α) (path key : List α) :
    (trie.insert path).contains key = true ↔ path <+: key ∨ trie.contains key = true := by
  induction path generalizing trie key with
  | nil => exact iff_of_true (contains_of_terminal rfl key) (.inl List.nil_prefix)
  | cons step path ih =>
      cases key with
      | nil => simp [contains, terminal_insert]
      | cons first key =>
          rw [contains, contains, terminal_insert, child_insert, Bool.or_eq_true,
            Bool.or_eq_true]
          by_cases same : first = step
          · subst same
            rw [Function.update_self, ih, List.cons_prefix_cons, and_iff_right rfl]
            exact or_left_comm
          · have apart : ¬ (step :: path) <+: (first :: key) := fun starts =>
              same (List.cons_prefix_cons.mp starts).1.symm
            rw [Function.update_of_ne same, or_iff_right apart]

/-- A trie holds what some inserted path is a prefix of. -/
theorem contains_insertAll (trie : PrefixTrie α) (paths : List (List α)) (key : List α) :
    (paths.foldl insert trie).contains key = true ↔
      (∃ path ∈ paths, path <+: key) ∨ trie.contains key = true := by
  induction paths generalizing trie with
  | nil => simp
  | cons path paths ih =>
      rw [List.foldl_cons, ih, contains_insert]
      simp only [List.mem_cons, exists_eq_or_imp]
      exact or_left_comm.trans or_assoc.symm

end PrefixTrie

end Idsm.Foundation
