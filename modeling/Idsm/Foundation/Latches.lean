import Idsm.Foundation.Reactors
import Idsm.Foundation.Windows

/-! Gauges that are reported once in a window. A window opens with the first event behind the
end of the one before, and a report is due as soon as the window's events are enough. -/

set_option autoImplicit false

namespace Idsm.Foundation

/-- What is measured over a window. -/
structure Gauge (ε δ : Type) where
  empty : δ
  add : δ → ε → δ
  full : δ → Bool

/-- The window that is open, and whether it was reported. -/
structure Latch (δ : Type) where
  start : Nat
  held : δ
  reported : Bool
  deriving DecidableEq, Repr

section Feeding

variable {ε δ : Type} (gauge : Gauge ε δ) (time : ε → Nat) (interval : Nat)

def Latch.enter (latch : Option (Latch δ)) (now : Nat) : Latch δ :=
  match latch with
  | none => ⟨now, gauge.empty, false⟩
  | some latch => if interval ≤ now - latch.start then ⟨now, gauge.empty, false⟩ else latch

/-- The window with the event in it, and whether it is reported now. -/
def Latch.feed (latch : Option (Latch δ)) (event : ε) : Latch δ × Bool :=
  let latch := Latch.enter gauge interval latch (time event)
  let held := gauge.add latch.held event
  if gauge.full held && !latch.reported then ({ latch with held, reported := true }, true)
  else ({ latch with held }, false)

end Feeding

section Law

variable {ε δ : Type}

/-- The window is enough from its last event on. -/
def Reached (enough : List ε → Prop) (window : List ε) : Prop :=
  enough window ∧ (window.dropLast = [] ∨ ¬ enough window.dropLast)

/-- What a gauge holds tells whether its window is enough, until the window was. -/
structure Gauge.Tells (gauge : Gauge ε δ) (enough : List ε → Prop) (stands : δ → List ε → Prop) :
    Prop where
  empty : stands gauge.empty []
  added : ∀ {held window} (event : ε), stands held window →
    stands (gauge.add held event) (window ++ [event])
  full : ∀ {held window} (event : ε), stands held window → (window = [] ∨ ¬ enough window) →
    (gauge.full (gauge.add held event) = true ↔ enough (window ++ [event]))
  grows : ∀ {window} (event : ε), window ≠ [] → enough window → enough (window ++ [event])

/-- The latch of a window. -/
def Latch.Stands (time : ε → Nat) (enough : List ε → Prop) (stands : δ → List ε → Prop)
    (window : List ε) : Option (Latch δ) → Prop
  | none => window = []
  | some latch => window.head?.map time = some latch.start ∧ stands latch.held window ∧
      (latch.reported = true ↔ enough window)

variable {gauge : Gauge ε δ} {time : ε → Nat} {interval : Nat} {enough : List ε → Prop}
  {stands : δ → List ε → Prop} {window : List ε} {latch : Option (Latch δ)} {event : ε}

theorem reached_append : Reached enough (window ++ [event]) ↔
    enough (window ++ [event]) ∧ (window = [] ∨ ¬ enough window) := by
  rw [Reached, List.dropLast_concat]

/-- An event that is added to what stands for the window it joins. -/
theorem Gauge.Tells.feed_entered (tells : gauge.Tells enough stands) {latch : Latch δ}
    (held : stands latch.held window)
    (reported : latch.reported = true ↔ window ≠ [] ∧ enough window)
    (result : Latch δ × Bool)
    (fed : result = if gauge.full (gauge.add latch.held event) && !latch.reported then
        ({ latch with held := gauge.add latch.held event, reported := true }, true)
      else ({ latch with held := gauge.add latch.held event }, false)) :
    result.1.start = latch.start ∧ stands result.1.held (window ++ [event]) ∧
      (result.1.reported = true ↔ enough (window ++ [event])) ∧
      (result.2 = true ↔ Reached enough (window ++ [event])) := by
  have added := tells.added event held
  rw [reached_append]
  cases was : latch.reported with
  | true =>
      obtain ⟨some, before⟩ := reported.mp was
      have more := tells.grows event some before
      rw [was, Bool.not_true, Bool.and_false, if_neg Bool.false_ne_true] at fed
      subst fed
      refine ⟨rfl, added, iff_of_true rfl more, iff_of_false Bool.false_ne_true ?_⟩
      rintro ⟨_, none | short⟩
      · exact some none
      · exact short before
  | false =>
      have short : window = [] ∨ ¬ enough window := by
        by_contra both
        rw [not_or, not_not] at both
        rw [reported.mpr both] at was
        cases was
      have full := tells.full event held short
      rw [was, Bool.not_false, Bool.and_true] at fed
      cases reaches : gauge.full (gauge.add latch.held event) with
      | true =>
          rw [reaches, if_pos rfl] at fed
          subst fed
          have enough' := full.mp reaches
          exact ⟨rfl, added, iff_of_true rfl enough', iff_of_true rfl ⟨enough', short⟩⟩
      | false =>
          have missing : ¬ enough (window ++ [event]) := by
            rw [← full, reaches]
            exact Bool.false_ne_true
          rw [reaches, if_neg Bool.false_ne_true] at fed
          subst fed
          exact ⟨rfl, added, iff_of_false Bool.false_ne_true missing,
            iff_of_false Bool.false_ne_true fun reached => missing reached.1⟩

/-- One event: the latch stands for the window that the event joins, and the report comes when
that window is enough from this event on. -/
theorem Latch.Stands.feed (tells : gauge.Tells enough stands)
    (latched : Latch.Stands time enough stands window latch)
    (late : ∀ first ∈ window.head?, time first ≤ time event) :
    Latch.Stands time enough stands (joinWindow time interval window event)
        (some (Latch.feed gauge time interval latch event).1) ∧
      ((Latch.feed gauge time interval latch event).2 = true ↔
        Reached enough (joinWindow time interval window event)) := by
  have alone : ∀ entered, Latch.enter gauge interval latch (time event) = entered →
      entered = ⟨time event, gauge.empty, false⟩ →
      joinWindow time interval window event = [event] →
      Latch.Stands time enough stands (joinWindow time interval window event)
          (some (Latch.feed gauge time interval latch event).1) ∧
        ((Latch.feed gauge time interval latch event).2 = true ↔
          Reached enough (joinWindow time interval window event)) := by
    intro entered enters fresh joins
    subst fresh
    obtain ⟨start, held, reported, reports⟩ := @Gauge.Tells.feed_entered _ _ _ _ _ [] event
      tells ⟨time event, gauge.empty, false⟩ tells.empty (by simp)
      (Latch.feed gauge time interval latch event) (by rw [Latch.feed, enters])
    rw [joins]
    exact ⟨⟨congrArg some start.symm, held, reported⟩, reports⟩
  cases latch with
  | none =>
      have nothing : window = [] := latched
      exact alone _ rfl rfl (by rw [nothing]; rfl)
  | some latch =>
      obtain ⟨opened, held, reported⟩ := latched
      cases window with
      | nil => cases opened
      | cons first rest =>
          have start : time first = latch.start := Option.some.inj opened
          have before : time first ≤ time event := late first rfl
          by_cases inside : time event < time first + interval
          · have enters : Latch.enter gauge interval (some latch) (time event) = latch := by
              rw [Latch.enter, if_neg (by omega)]
            obtain ⟨start', held', reported', reports⟩ := @Gauge.Tells.feed_entered _ _ _ _ _
              (first :: rest) event tells _ held
              (by rw [reported]; exact (and_iff_right (List.cons_ne_nil _ _)).symm)
              (Latch.feed gauge time interval (some latch) event) (by rw [Latch.feed, enters])
            rw [joinWindow_of_open inside]
            exact ⟨⟨by rw [start']; exact opened, held', reported'⟩, reports⟩
          · refine alone _ ?_ rfl (if_neg inside)
            exact if_pos (by omega)

/-- The latch behind a run of events. -/
def Latch.after (gauge : Gauge ε δ) (time : ε → Nat) (interval : Nat) (events : List ε) :
    Option (Latch δ) :=
  events.foldl (fun latch event => some (Latch.feed gauge time interval latch event).1) none

theorem Latch.after_append (events : List ε) (event : ε) :
    Latch.after gauge time interval (events ++ [event]) =
      some (Latch.feed gauge time interval (Latch.after gauge time interval events) event).1 := by
  rw [Latch.after, List.foldl_append]
  rfl

theorem head_joinWindow (window : List ε) (event first : ε)
    (opens : first ∈ (joinWindow time interval window event).head?) :
    first ∈ window.head? ∨ first = event := by
  cases window with
  | nil => exact .inr (Option.some.inj opens).symm
  | cons head rest =>
      by_cases inside : time event < time head + interval
      · rw [joinWindow_of_open inside] at opens
        exact .inl opens
      · have single : joinWindow time interval (head :: rest) event = [event] := if_neg inside
        rw [single] at opens
        exact .inr (Option.some.inj opens).symm

theorem head_currentWindow (events : List ε) :
    ∀ first ∈ (currentWindow time interval events).head?, first ∈ events := by
  induction events using List.reverseRecOn with
  | nil =>
      intro first opens
      cases opens
  | append_singleton events event ih =>
      intro first opens
      rw [currentWindow_append] at opens
      rcases head_joinWindow _ _ _ opens with before | here
      · exact List.mem_append_left _ (ih first before)
      · exact List.mem_append_right _ (List.mem_singleton.mpr here)

/-- The latch of a run stands for the run's last window. -/
theorem Latch.stands_after (tells : gauge.Tells enough stands) {events : List ε}
    (inOrder : events.Pairwise fun first second => time first ≤ time second) :
    Latch.Stands time enough stands (currentWindow time interval events)
      (Latch.after gauge time interval events) := by
  induction events using List.reverseRecOn with
  | nil => exact rfl
  | append_singleton events event ih =>
      obtain ⟨before, _, last⟩ := List.pairwise_append.mp inOrder
      rw [currentWindow_append, Latch.after_append]
      exact ((ih before).feed tells fun first opens =>
        last first (head_currentWindow events first opens) event (List.mem_singleton.mpr rfl)).1

/-- A report comes with the event that makes its window enough, and with no other. -/
theorem Latch.reports_iff (tells : gauge.Tells enough stands) {events : List ε}
    (inOrder : (events ++ [event]).Pairwise fun first second => time first ≤ time second) :
    (Latch.feed gauge time interval (Latch.after gauge time interval events) event).2 = true ↔
      Reached enough (currentWindow time interval (events ++ [event])) := by
  obtain ⟨before, _, last⟩ := List.pairwise_append.mp inOrder
  rw [currentWindow_append]
  exact ((Latch.stands_after tells before).feed tells fun first opens =>
    last first (head_currentWindow events first opens) event (List.mem_singleton.mpr rfl)).2

theorem Latch.start_le (tells : gauge.Tells enough stands) {events : List ε}
    (inOrder : (events ++ [event]).Pairwise fun first second => time first ≤ time second) :
    ∀ latch ∈ Latch.after gauge time interval events, latch.start ≤ time event := by
  obtain ⟨before, _, last⟩ := List.pairwise_append.mp inOrder
  have latched := @Latch.stands_after _ _ gauge time interval enough stands tells events before
  intro latch held
  rw [Option.mem_def.mp held] at latched
  obtain ⟨first, opens, same⟩ := Option.map_eq_some_iff.mp latched.1
  rw [← same]
  exact last first (head_currentWindow events first opens) event (List.mem_singleton.mpr rfl)

end Law

section Machines

variable {ε δ σ ω : Type} {gauge : Gauge ε δ} {time : ε → Nat} {interval : Nat}
  {enough : List ε → Prop} {stands : δ → List ε → Prop} {machine : Reactor σ ε ω}
  {hears : ε → Bool} {keeps : σ → Option (Latch δ) → Prop} {state : σ} {events : List ε}
  {event : ε}

/-- A machine that keeps the latch of the events it hears and answers when they are reported. -/
structure Latch.Kept (gauge : Gauge ε δ) (time : ε → Nat) (interval : Nat)
    (machine : Reactor σ ε ω) (hears : ε → Bool) (keeps : σ → Option (Latch δ) → Prop) :
    Prop where
  heard : ∀ {state latch event}, hears event = true → keeps state latch →
    (∀ opened ∈ latch, opened.start ≤ time event) →
    keeps (machine.react state event).1 (some (Latch.feed gauge time interval latch event).1) ∧
      ((machine.react state event).2 ≠ [] ↔
        (Latch.feed gauge time interval latch event).2 = true)
  unheard : ∀ {state event}, hears event = false → machine.react state event = (state, [])

theorem heard_inOrder
    (inOrder : (events ++ [event]).Pairwise fun first second => time first ≤ time second)
    (hears : ε → Bool) (heard : hears event = true) :
    (events.filter hears ++ [event]).Pairwise fun first second => time first ≤ time second := by
  have filtered := inOrder.filter hears
  rwa [List.filter_append, List.filter_cons_of_pos heard] at filtered

theorem Latch.Kept.after (kept : Latch.Kept gauge time interval machine hears keeps)
    (tells : gauge.Tells enough stands) (start : keeps state none)
    (inOrder : events.Pairwise fun first second => time first ≤ time second) :
    keeps (machine.after state events)
      (Latch.after gauge time interval (events.filter hears)) := by
  induction events using List.reverseRecOn with
  | nil => exact start
  | append_singleton events event ih =>
      have held := ih (List.pairwise_append.mp inOrder).1
      rw [Reactor.after_append, Reactor.after_singleton, List.filter_append]
      cases heard : hears event with
      | true =>
          rw [List.filter_cons_of_pos heard, List.filter_nil, Latch.after_append]
          exact (kept.heard heard held
            (Latch.start_le tells (heard_inOrder inOrder hears heard))).1
      | false =>
          rw [kept.unheard heard, List.filter_cons_of_neg (by rw [heard]; exact Bool.noConfusion),
            List.filter_nil, List.append_nil]
          exact held

/-- The machine answers exactly to the event that makes the window of what it heard enough. -/
theorem Latch.Kept.reports_iff (kept : Latch.Kept gauge time interval machine hears keeps)
    (tells : gauge.Tells enough stands) (start : keeps state none)
    (inOrder : (events ++ [event]).Pairwise fun first second => time first ≤ time second) :
    (machine.react (machine.after state events) event).2 ≠ [] ↔
      hears event = true ∧
        Reached enough (currentWindow time interval (events.filter hears ++ [event])) := by
  have held := kept.after tells start (List.pairwise_append.mp inOrder).1
  cases heard : hears event with
  | true =>
      have order := heard_inOrder inOrder hears heard
      rw [(kept.heard heard held (Latch.start_le tells order)).2, Latch.reports_iff tells order]
      exact (and_iff_right rfl).symm
  | false =>
      rw [kept.unheard heard]
      simp

end Machines

end Idsm.Foundation
