import Mathlib

/-! Programs over a persistent store whose steps may fail or be cut short. A
program returns, throws, or leaves the store as a crash found it; the partial
correctness triple below speaks about all three ends at once. -/

set_option autoImplicit false

namespace Idsm.Foundation

/-- What the environment does to one step. `progress` counts how much of the
step's effect reached the store before the error or the crash. -/
inductive Fault where
  | none
  | fail (progress : Nat)
  | crash (progress : Nat)
  deriving DecidableEq, Repr

inductive Outcome (σ ε α : Type) where
  | returned (value : α) (store : σ)
  | threw (error : ε) (store : σ)
  | crashed (store : σ)
  deriving DecidableEq, Repr

variable {σ ε δ α β : Type}

/-- The store a program leaves behind, however it ended. -/
def Outcome.store : Outcome σ ε α → σ
  | .returned _ store => store
  | .threw _ store => store
  | .crashed store => store

@[simp] theorem Outcome.store_returned (value : α) (store : σ) :
    (Outcome.returned value store : Outcome σ ε α).store = store := rfl

@[simp] theorem Outcome.store_threw (error : ε) (store : σ) :
    (Outcome.threw error store : Outcome σ ε α).store = store := rfl

@[simp] theorem Outcome.store_crashed (store : σ) :
    (Outcome.crashed store : Outcome σ ε α).store = store := rfl

def Outcome.andThen (outcome : Outcome σ ε α) (next : α → σ → Outcome σ ε β) :
    Outcome σ ε β :=
  match outcome with
  | .returned value store => next value store
  | .threw error store => .threw error store
  | .crashed store => .crashed store

@[simp] theorem Outcome.andThen_returned (value : α) (store : σ)
    (next : α → σ → Outcome σ ε β) :
    (Outcome.returned value store).andThen next = next value store := rfl

@[simp] theorem Outcome.andThen_threw (error : ε) (store : σ)
    (next : α → σ → Outcome σ ε β) :
    (Outcome.threw error store).andThen next = .threw error store := rfl

@[simp] theorem Outcome.andThen_crashed (store : σ) (next : α → σ → Outcome σ ε β) :
    (Outcome.crashed store : Outcome σ ε α).andThen next = .crashed store := rfl

def Program (σ ε α : Type) : Type := σ → Outcome σ ε α

namespace Program

def run (program : Program σ ε α) (store : σ) : Outcome σ ε α := program store

instance : Monad (Program σ ε) where
  pure value := fun store => .returned value store
  bind program next := fun store =>
    (program.run store).andThen fun value later => (next value).run later

def throw (error : ε) : Program σ ε α := fun store => .threw error store

/-- Look at the store without changing it. -/
def inspect (view : σ → α) : Program σ ε α := fun store => .returned (view store) store

/-- Change what is only in memory: no fault applies. -/
def update (change : σ → σ) : Program σ ε Unit := fun store => .returned () (change store)

def ofExcept : Except ε α → Program σ ε α
  | .ok value => pure value
  | .error error => throw error

/-- One step on the store. `perform` is its whole effect with its result,
`partially` what a cut-off step leaves, and `failed` the result of an error. -/
def step (fault : Fault) (perform : σ → α × σ) (partially : Nat → σ → σ) (failed : α) :
    Program σ ε α := fun store =>
  match fault with
  | .none => .returned (perform store).1 (perform store).2
  | .fail progress => .returned failed (partially progress store)
  | .crash progress => .crashed (partially progress store)

/-- Turn some of the exceptions into returned values. -/
def handle (program : Program σ ε α) (handler : ε → Except δ α) : Program σ δ α := fun store =>
  match program.run store with
  | .returned value later => .returned value later
  | .threw error later =>
      match handler error with
      | .ok value => .returned value later
      | .error other => .threw other later
  | .crashed later => .crashed later

@[simp] theorem run_pure (value : α) (store : σ) :
    (pure value : Program σ ε α).run store = .returned value store := rfl

@[simp] theorem run_bind (program : Program σ ε α) (next : α → Program σ ε β) (store : σ) :
    (program >>= next).run store =
      (program.run store).andThen fun value later => (next value).run later := rfl

@[simp] theorem run_throw (error : ε) (store : σ) :
    (throw error : Program σ ε α).run store = .threw error store := rfl

@[simp] theorem run_inspect (view : σ → α) (store : σ) :
    (inspect view : Program σ ε α).run store = .returned (view store) store := rfl

@[simp] theorem run_update (change : σ → σ) (store : σ) :
    (update change : Program σ ε Unit).run store = .returned () (change store) := rfl

@[simp] theorem run_ofExcept_ok (value : α) (store : σ) :
    (ofExcept (.ok value) : Program σ ε α).run store = .returned value store := rfl

@[simp] theorem run_ofExcept_error (error : ε) (store : σ) :
    (ofExcept (.error error) : Program σ ε α).run store = .threw error store := rfl

section Step

variable (perform : σ → α × σ) (partially : Nat → σ → σ) (failed : α) (store : σ)

@[simp] theorem run_step_none :
    (step .none perform partially failed : Program σ ε α).run store =
      .returned (perform store).1 (perform store).2 := rfl

@[simp] theorem run_step_fail (progress : Nat) :
    (step (.fail progress) perform partially failed : Program σ ε α).run store =
      .returned failed (partially progress store) := rfl

@[simp] theorem run_step_crash (progress : Nat) :
    (step (.crash progress) perform partially failed : Program σ ε α).run store =
      .crashed (partially progress store) := rfl

end Step

theorem run_handle (program : Program σ ε α) (handler : ε → Except δ α) (store : σ) :
    (program.handle handler).run store =
      match program.run store with
      | .returned value later => .returned value later
      | .threw error later =>
          match handler error with
          | .ok value => .returned value later
          | .error other => .threw other later
      | .crashed later => .crashed later := rfl

end Program

/-- Where a program may end: `done` for results, `raised` for exceptions and
`dead` for the stores a crash may leave. -/
def Outcome.Within (outcome : Outcome σ ε α) (done : α → σ → Prop) (raised : ε → σ → Prop)
    (dead : σ → Prop) : Prop :=
  match outcome with
  | .returned value store => done value store
  | .threw error store => raised error store
  | .crashed store => dead store

/-- From every store in `before`, the program ends in the three postconditions. -/
def Program.Triple (before : σ → Prop) (program : Program σ ε α) (done : α → σ → Prop)
    (raised : ε → σ → Prop) (dead : σ → Prop) : Prop :=
  ∀ store, before store → (program.run store).Within done raised dead

namespace Program.Triple

variable {before : σ → Prop} {done : α → σ → Prop} {raised : ε → σ → Prop}
  {dead : σ → Prop}

theorem pure {value : α} (holds : ∀ store, before store → done value store) :
    Triple before (Pure.pure value : Program σ ε α) done raised dead :=
  fun store given => holds store given

theorem bind {program : Program σ ε α} {next : α → Program σ ε β} {last : β → σ → Prop}
    (middle : α → σ → Prop) (first : Triple before program middle raised dead)
    (second : ∀ value, Triple (middle value) (next value) last raised dead) :
    Triple before (program >>= next) last raised dead := by
  intro store given
  have reached := first store given
  rw [run_bind]
  cases ended : program.run store with
  | returned value later =>
      rw [ended] at reached
      exact second value later reached
  | threw error later =>
      rw [ended] at reached
      exact reached
  | crashed later =>
      rw [ended] at reached
      exact reached

theorem weaken {program : Program σ ε α} {stronger : σ → Prop} {tighter : α → σ → Prop}
    {fewer : ε → σ → Prop} {nearer : σ → Prop}
    (triple : Triple stronger program tighter fewer nearer)
    (enter : ∀ store, before store → stronger store)
    (finish : ∀ value store, tighter value store → done value store)
    (escape : ∀ error store, fewer error store → raised error store)
    (die : ∀ store, nearer store → dead store) :
    Triple before program done raised dead := by
  intro store given
  have reached := triple store (enter store given)
  cases ended : program.run store with
  | returned value later =>
      rw [ended] at reached
      exact finish value later reached
  | threw error later =>
      rw [ended] at reached
      exact escape error later reached
  | crashed later =>
      rw [ended] at reached
      exact die later reached

/-- One postcondition for every end holds of the store the program leaves. -/
theorem store_of {program : Program σ ε α} {after : σ → Prop}
    (triple : Triple before program (fun _ => after) (fun _ => after) after) {store : σ}
    (given : before store) : after (program.run store).store := by
  have reached := triple store given
  cases ended : program.run store with
  | returned value later =>
      rw [ended] at reached
      exact reached
  | threw error later =>
      rw [ended] at reached
      exact reached
  | crashed later =>
      rw [ended] at reached
      exact reached

/-- It is enough to follow the program from each store by itself. -/
theorem pointwise {program : Program σ ε α}
    (each : ∀ store, before store → Triple (· = store) program done raised dead) :
    Triple before program done raised dead := fun store given => each store given store rfl

theorem handle {program : Program σ ε α} {handler : ε → Except δ α} {escaped : δ → σ → Prop}
    (triple : Triple before program done raised dead)
    (handled : ∀ error value, handler error = .ok value → ∀ store, raised error store →
      done value store)
    (escapes : ∀ error other, handler error = .error other → ∀ store, raised error store →
      escaped other store) :
    Triple before (program.handle handler) done escaped dead := by
  intro store given
  have reached := triple store given
  rw [run_handle]
  cases ended : program.run store with
  | returned value later =>
      rw [ended] at reached
      exact reached
  | threw error later =>
      rw [ended] at reached
      cases answered : handler error with
      | ok value =>
          simp only [answered]
          exact handled error value answered later reached
      | error other =>
          simp only [answered]
          exact escapes error other answered later reached
  | crashed later =>
      rw [ended] at reached
      exact reached

theorem throw {error : ε} (holds : ∀ store, before store → raised error store) :
    Triple before (Program.throw error : Program σ ε α) done raised dead :=
  fun store given => holds store given

theorem inspect {view : σ → α} (holds : ∀ store, before store → done (view store) store) :
    Triple before (Program.inspect view : Program σ ε α) done raised dead :=
  fun store given => holds store given

theorem update {change : σ → σ} {done : Unit → σ → Prop}
    (holds : ∀ store, before store → done () (change store)) :
    Triple before (Program.update change : Program σ ε Unit) done raised dead :=
  fun store given => holds store given

theorem ofExcept {source : Except ε α}
    (succeeds : ∀ value, source = .ok value → ∀ store, before store → done value store)
    (fails : ∀ error, source = .error error → ∀ store, before store → raised error store) :
    Triple before (Program.ofExcept source : Program σ ε α) done raised dead := by
  intro store given
  cases source with
  | ok value => exact succeeds value rfl store given
  | error error => exact fails error rfl store given

theorem step {fault : Fault} {perform : σ → α × σ} {partially : Nat → σ → σ} {failed : α}
    (runs : fault = .none → ∀ store, before store → done (perform store).1 (perform store).2)
    (fails : ∀ progress, fault = .fail progress → ∀ store, before store →
      done failed (partially progress store))
    (crashes : ∀ progress, fault = .crash progress → ∀ store, before store →
      dead (partially progress store)) :
    Triple before (Program.step fault perform partially failed : Program σ ε α)
      done raised dead := by
  intro store given
  cases fault with
  | none => exact runs rfl store given
  | fail progress => exact fails progress rfl store given
  | crash progress => exact crashes progress rfl store given

end Program.Triple

/-- What a program may return and throw, from any store. -/
def Program.Ends (results : α → Prop) (allowed : ε → Prop) (program : Program σ ε α) : Prop :=
  ∀ store, (program.run store).Within (fun value _ => results value) (fun error _ => allowed error)
    (fun _ => True)

namespace Program.Ends

variable {results : α → Prop} {allowed : ε → Prop}

theorem pure {value : α} (holds : results value) :
    Ends results allowed (Pure.pure value : Program σ ε α) := fun _ => holds

theorem step {fault : Fault} {perform : σ → α × σ} {partially : Nat → σ → σ} {failed : α} :
    Ends (fun _ => True) allowed (Program.step fault perform partially failed : Program σ ε α) := by
  intro store
  cases fault with
  | none => trivial
  | fail progress => trivial
  | crash progress => trivial

theorem ofExcept {source : Except ε α} (fails : ∀ error, source = .error error → allowed error) :
    Ends (fun _ => True) allowed (Program.ofExcept source : Program σ ε α) := by
  intro store
  cases source with
  | ok value => trivial
  | error raised => exact fails raised rfl

theorem bind {program : Program σ ε α} {next : α → Program σ ε β} {later : β → Prop}
    (first : Ends (fun _ => True) allowed program)
    (second : ∀ value, Ends later allowed (next value)) : Ends later allowed (program >>= next) := by
  intro store
  have reached := first store
  rw [run_bind]
  cases ended : program.run store with
  | returned value middle => exact second value middle
  | threw error middle =>
      rw [ended] at reached
      exact reached
  | crashed middle => trivial

/-- What is returned after handling was returned before it, or answers an exception. -/
theorem returned_handle {program : Program σ ε α} {handler : ε → Except δ α} {store later : σ}
    {value : α} (ends : Ends results allowed program)
    (returned : (program.handle handler).run store = .returned value later) :
    results value ∨ ∃ error, allowed error ∧ handler error = .ok value := by
  have reached := ends store
  rw [run_handle] at returned
  cases ended : program.run store with
  | returned other middle =>
      rw [ended] at reached returned
      cases returned
      exact .inl reached
  | threw error middle =>
      rw [ended] at reached returned
      cases answered : handler error with
      | ok other =>
          simp only [answered] at returned
          cases returned
          exact .inr ⟨error, reached, answered⟩
      | error other =>
          simp only [answered] at returned
          cases returned
  | crashed middle =>
      rw [ended] at returned
      cases returned

end Program.Ends

end Idsm.Foundation
