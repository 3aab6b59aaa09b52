import Idsm.Foundation.Reactors

/-! Alarms that rest after they sounded. A trigger has a key, and one that sounds mutes its key
for a span; what sounds is then told by the triggers alone. -/

set_option autoImplicit false

namespace Idsm.Foundation

/-- What would sound after these events, under which key, and how long the key then rests. -/
structure Alarm (ε κ ω : Type) where
  time : ε → Nat
  span : Nat
  trigger : List ε → ε → Option (κ × ω)

namespace Alarm

variable {ε κ ω : Type} (alarm : Alarm ε κ ω)

abbrev InOrder (events : List ε) : Prop :=
  events.Pairwise fun first second => alarm.time first ≤ alarm.time second

/-- Everything that sounded under the key is a span ago. -/
def Rested (sounds : List ε → ε → Option ω) (before : List ε) (key : κ) (now : Nat) : Prop :=
  ∀ prior earlier later, before = prior ++ earlier :: later → ∀ answer,
    sounds prior earlier = some answer → alarm.trigger prior earlier = some (key, answer) →
    alarm.time earlier + alarm.span ≤ now

/-- A machine that sounds a trigger whose key it does not mute, and mutes the key for the span,
as long as its events fit. -/
structure Obeyed (fits : ε → Prop) (sounds : List ε → ε → Option ω)
    (mutes : List ε → κ → Nat → Bool) : Prop where
  fresh : ∀ key now, mutes [] key now = false
  quiet : ∀ {before event}, (∀ member ∈ before ++ [event], fits member) →
    alarm.trigger before event = none → sounds before event = none ∧
      ∀ key now, mutes (before ++ [event]) key now = mutes before key now
  muted : ∀ {before event key answer}, (∀ member ∈ before ++ [event], fits member) →
    alarm.trigger before event = some (key, answer) →
    mutes before key (alarm.time event) = true → sounds before event = none ∧
      ∀ key now, mutes (before ++ [event]) key now = mutes before key now
  sounded : ∀ {before event key answer}, (∀ member ∈ before ++ [event], fits member) →
    alarm.trigger before event = some (key, answer) →
    mutes before key (alarm.time event) = false → sounds before event = some answer ∧
      (∀ now, alarm.time event ≤ now →
        (mutes (before ++ [event]) key now = true ↔ now < alarm.time event + alarm.span)) ∧
      ∀ other now, other ≠ key → mutes (before ++ [event]) other now = mutes before other now

variable {alarm} {fits : ε → Prop} {sounds : List ε → ε → Option ω}
  {mutes : List ε → κ → Nat → Bool} {before : List ε} {event : ε} {key : κ} {answer : ω}

theorem rested_nil (now : Nat) : alarm.Rested sounds [] key now := by
  intro prior earlier later split
  exact absurd split (by simp)

theorem rested_append {now : Nat} : alarm.Rested sounds (before ++ [event]) key now ↔
    alarm.Rested sounds before key now ∧ ∀ answer, sounds before event = some answer →
      alarm.trigger before event = some (key, answer) → alarm.time event + alarm.span ≤ now := by
  constructor
  · intro rested
    constructor
    · intro prior earlier later split
      exact rested prior earlier (later ++ [event]) (by rw [split]; simp)
    · exact rested before event [] rfl
  · rintro ⟨rested, newest⟩ prior earlier later split
    rcases List.eq_nil_or_concat later with rfl | ⟨others, last, rfl⟩
    · obtain ⟨rfl, same⟩ := List.append_inj' split rfl
      obtain rfl := List.singleton_inj.mp same
      exact newest
    · rw [List.concat_eq_append, ← List.cons_append, ← List.append_assoc] at split
      exact rested prior earlier others (List.append_inj' split rfl).1

/-- A key is mute as long as it has not rested. -/
theorem Obeyed.mutes_iff (obeyed : alarm.Obeyed fits sounds mutes)
    (inOrder : alarm.InOrder before) (fit : ∀ member ∈ before, fits member) (key : κ) {now : Nat} (late : ∀ earlier ∈ before, alarm.time earlier ≤ now) :
    mutes before key now = false ↔ alarm.Rested sounds before key now := by
  induction before using List.reverseRecOn generalizing key now with
  | nil => exact iff_of_true (obeyed.fresh key now) (rested_nil now)
  | append_singleton before event ih =>
      obtain ⟨inOrder, _, last⟩ := List.pairwise_append.mp inOrder
      have fitBefore : ∀ member ∈ before, fits member :=
        fun member place => fit member (List.mem_append_left _ place)
      have before' : ∀ earlier ∈ before, alarm.time earlier ≤ now :=
        fun earlier member => late earlier (List.mem_append_left _ member)
      have here : ∀ earlier ∈ before, alarm.time earlier ≤ alarm.time event :=
        fun earlier member => last earlier member event (List.mem_singleton.mpr rfl)
      have silent : sounds before event = none →
          (∀ other now, mutes (before ++ [event]) other now = mutes before other now) →
          (mutes (before ++ [event]) key now = false ↔
            alarm.Rested sounds (before ++ [event]) key now) := by
        intro none same
        rw [same, ih inOrder fitBefore key before', rested_append]
        simp [none]
      cases fires : alarm.trigger before event with
      | none =>
          obtain ⟨none, same⟩ := obeyed.quiet fit fires
          exact silent none same
      | some trigger =>
          obtain ⟨fired, answer⟩ := trigger
          cases mute : mutes before fired (alarm.time event) with
          | true =>
              obtain ⟨none, same⟩ := obeyed.muted fit fires mute
              exact silent none same
          | false =>
              obtain ⟨heard, until_, others⟩ := obeyed.sounded fit fires mute
              rw [rested_append]
              by_cases same : key = fired
              · subst same
                have rested := (ih inOrder fitBefore key here).mp mute
                have reached := late event (List.mem_append_right _ (List.mem_singleton.mpr rfl))
                rw [← Bool.not_eq_true, until_ now reached, Nat.not_lt]
                constructor
                · intro beyond
                  refine ⟨fun prior earlier later split answer sounded triggered => ?_,
                    fun _ _ _ => beyond⟩
                  exact Nat.le_trans (rested prior earlier later split answer sounded triggered)
                    reached
                · rintro ⟨_, newest⟩
                  exact newest answer heard fires
              · rw [others key now same, ih inOrder fitBefore key before']
                have other : ∀ answer', alarm.trigger before event ≠ some (key, answer') := by
                  intro answer' equal
                  rw [fires] at equal
                  exact same (Prod.mk.inj (Option.some.inj equal)).1.symm
                simp [other]

/-- What sounds is the triggers whose key has rested. -/
theorem Obeyed.sounds_iff (obeyed : alarm.Obeyed fits sounds mutes)
    (inOrder : alarm.InOrder (before ++ [event]))
    (fit : ∀ member ∈ before ++ [event], fits member) : sounds before event = some answer ↔
      ∃ key, alarm.trigger before event = some (key, answer) ∧
        alarm.Rested sounds before key (alarm.time event) := by
  obtain ⟨inOrder, _, last⟩ := List.pairwise_append.mp inOrder
  have late : ∀ earlier ∈ before, alarm.time earlier ≤ alarm.time event :=
    fun earlier member => last earlier member event (List.mem_singleton.mpr rfl)
  cases fires : alarm.trigger before event with
  | none => simp [(obeyed.quiet fit fires).1]
  | some trigger =>
      obtain ⟨key, found⟩ := trigger
      have law := obeyed.mutes_iff inOrder
        (fun member place => fit member (List.mem_append_left _ place)) key late
      cases mute : mutes before key (alarm.time event) with
      | true =>
          have awake : ¬ alarm.Rested sounds before key (alarm.time event) := by
            rw [← law, mute]
            exact Bool.noConfusion
          rw [(obeyed.muted fit fires mute).1]
          constructor
          · intro impossible
            cases impossible
          · rintro ⟨other, same, rested⟩
            cases same
            exact absurd rested awake
      | false =>
          rw [(obeyed.sounded fit fires mute).1]
          constructor
          · intro same
            cases same
            exact ⟨key, rfl, law.mp mute⟩
          · rintro ⟨other, same, _⟩
            cases same
            rfl

end Alarm

/-- A detector with alerts that are due whatever came before, and that mute their key. -/
structure Muter (ε κ ω : Type) where
  time : ε → Nat
  span : Nat
  due : ε → Option (κ × ω)

namespace Muter

variable {ε κ ω : Type} [BEq κ] (muter : Muter ε κ ω)

/-- The keys with the time until which they are mute, the newest entry first. -/
def reactor : Reactor (List (κ × Nat)) ε ω where
  react := fun muted event =>
    match muter.due event with
    | none => (muted, [])
    | some (key, answer) =>
        if (muted.lookup key).any (muter.time event < ·) then (muted, [])
        else ((key, muter.time event + muter.span) :: muted, [answer])

def alarm : Alarm ε κ ω := ⟨muter.time, muter.span, fun _ => muter.due⟩

def sounds (before : List ε) (event : ε) : Option ω :=
  (muter.reactor.react (muter.reactor.after [] before) event).2.head?

def mutes (before : List ε) (key : κ) (now : Nat) : Bool :=
  ((muter.reactor.after [] before).lookup key).any (now < ·)

variable {muter} {before : List ε} {event : ε} {key : κ} {answer : ω}

theorem after_append_singleton : muter.reactor.after [] (before ++ [event]) =
    (muter.reactor.react (muter.reactor.after [] before) event).1 := by
  rw [Reactor.after_append, Reactor.after_singleton]

theorem react_quiet (silent : muter.due event = none) (muted : List (κ × Nat)) :
    muter.reactor.react muted event = (muted, []) := by
  simp only [reactor, silent]

theorem react_muted (due : muter.due event = some (key, answer)) {muted : List (κ × Nat)}
    (mute : (muted.lookup key).any (muter.time event < ·) = true) :
    muter.reactor.react muted event = (muted, []) := by
  simp only [reactor, due, mute, if_true]

theorem react_loud (due : muter.due event = some (key, answer)) {muted : List (κ × Nat)}
    (loud : (muted.lookup key).any (muter.time event < ·) = false) :
    muter.reactor.react muted event =
      ((key, muter.time event + muter.span) :: muted, [answer]) := by
  simp only [reactor, due, loud, if_neg Bool.false_ne_true]

theorem obeyed [LawfulBEq κ] : muter.alarm.Obeyed (fun _ => True) muter.sounds muter.mutes where
  fresh := fun _ _ => rfl
  quiet := by
    intro before event _ silent
    refine ⟨by rw [sounds, react_quiet silent]; rfl, fun key now => ?_⟩
    rw [mutes, after_append_singleton, react_quiet silent, mutes]
  muted := by
    intro before event key answer _ due mute
    refine ⟨by rw [sounds, react_muted due mute]; rfl, fun key now => ?_⟩
    rw [mutes, after_append_singleton, react_muted due mute, mutes]
  sounded := by
    intro before event key answer _ due loud
    refine ⟨by rw [sounds, react_loud due loud]; rfl, fun now _ => ?_,
      fun other now different => ?_⟩
    · rw [mutes, after_append_singleton, react_loud due loud, List.lookup_cons_self,
        Option.any_some]
      exact decide_eq_true_iff
    · rw [mutes, after_append_singleton, react_loud due loud, mutes, List.lookup_cons,
        beq_false_of_ne different]

/-- A machine that answers at most once to an event. -/
theorem mem_react {muted : List (κ × Nat)} :
    answer ∈ (muter.reactor.react muted event).2 ↔
      (muter.reactor.react muted event).2.head? = some answer := by
  cases due : muter.due event with
  | none => simp [react_quiet due]
  | some alert =>
      obtain ⟨key, raised⟩ := alert
      cases mute : (muted.lookup key).any (muter.time event < ·) with
      | true => simp [react_muted due mute]
      | false => simp [react_loud due mute, eq_comm]

/-- What is raised is what is due under a key that was not raised within the span. -/
theorem raises_iff [LawfulBEq κ] (inOrder : (before ++ [event]).Pairwise fun first second =>
      muter.time first ≤ muter.time second) :
    answer ∈ (muter.reactor.react (muter.reactor.after [] before) event).2 ↔
      ∃ key, muter.due event = some (key, answer) ∧
        ∀ prior earlier later, before = prior ++ earlier :: later →
          ∀ other ∈ (muter.reactor.react (muter.reactor.after [] prior) earlier).2,
            muter.due earlier = some (key, other) →
            muter.time earlier + muter.span ≤ muter.time event := by
  rw [mem_react, ← sounds, muter.obeyed.sounds_iff inOrder fun _ _ => trivial]
  simp only [Alarm.Rested, mem_react]
  rfl

end Muter

end Idsm.Foundation
