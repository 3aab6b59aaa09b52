import Idsm.Managerd.CertRenewal

/-! Which responses the renewal acts on. The slot belongs to no request: a response that
stays in it past its own request is taken for the next one's answer. -/

set_option autoImplicit false

namespace Idsm.Managerd

open Idsm.Foundation
open Idsm.Json (Value)

section Renewals

variable (manager : CertManager) (library : CertLibrary)

/-- The request a response names. -/
def requestIdOf (payload : List UInt8) : Option String :=
  match library.parse payload with
  | .error _ => none
  | .ok resp => (resp.valueOr "request_id" "" Value.getString).toOption

/-- The loop has taken a response to the request it waits for. -/
def AnswersOutstanding (state : Renewal) : Prop :=
  state.phase = .taken ∧ requestIdOf library state.cert.pendingPayload = some state.cert.rid

/-- A step acts on a response only when it answers the outstanding request. -/
structure OnlyAnswers (transition : Transition Renewal RenewalEvent) : Prop where
  consumed : ∀ nowMs env reloaded, transition.event = .takeResponse nowMs env reloaded →
    AnswersOutstanding library transition.before
  ending : transition.before.cert.st = .waiting → transition.after.cert.st = .idle →
    (∃ nowMs, transition.event = .checkDeadline nowMs ∧
      transition.before.cert.deadlineMs < nowMs) ∨ AnswersOutstanding library transition.before
  certificate : transition.after.files ≠ transition.before.files →
    AnswersOutstanding library transition.before
  backOff : ∀ nowMs env reloaded, transition.event = .takeResponse nowMs env reloaded →
    transition.after.cert.nextAttemptMs = nowMs + 24 * 3600 * 1000 →
    AnswersOutstanding library transition.before

/-- A response that arrives while a request is outstanding names it, and a request is sent
only when no response is left in the slot. -/
def TimelyResponses (state : Renewal) : RenewalEvent → Prop
  | .storePayload payload =>
      state.cert.st = .waiting → requestIdOf library payload = some state.cert.rid
  | .attempt _ _ sent =>
      sent = true → state.cert.responseReady = false ∧ state.delivering = false
  | _ => True

/-- While a request is outstanding, what is or comes into the slot answers it. -/
structure SlotMatches (state : Renewal) : Prop where
  waits : state.phase = .taken ∨ state.phase = .notReady → state.cert.st = .waiting
  matched : state.cert.st = .waiting →
    state.cert.responseReady = true ∨ state.delivering = true ∨ state.phase = .taken →
    requestIdOf library state.cert.pendingPayload = some state.cert.rid

variable {manager library} {state later : Renewal}

theorem slotMatches_init (files : CertFiles) : SlotMatches library (Renewal.init files) where
  waits := by rintro (impossible | impossible) <;> cases impossible
  matched := fun impossible => nomatch impossible

variable (manager library) in
/-- Any outcome of a response leaves the slot alone and ends the wait, or the daemon. -/
theorem consumeResponse_cases (nowMs : Int) (env : CertStep → Fault) (reloaded : Bool)
    (state : Renewal) :
    let after := consumeResponse manager library nowMs env reloaded state
    after.cert.pendingPayload = state.cert.pendingPayload ∧ after.cert.rid = state.cert.rid ∧
      (after.cert.st = .idle ∧ after.phase = .polling ∨
        after.cert = state.cert ∧ after.phase = .stopped) := by
  simp only [consumeResponse]
  split
  · exact ⟨rfl, rfl, .inl ⟨rfl, rfl⟩⟩
  · exact ⟨rfl, rfl, .inl ⟨rfl, rfl⟩⟩
  · exact ⟨rfl, rfl, .inr ⟨rfl, rfl⟩⟩
  · exact ⟨rfl, rfl, .inr ⟨rfl, rfl⟩⟩

variable (manager library) in
theorem attemptRenewal_cases (nowMs : Int) (rid : String) (sent : Bool) (state : Renewal) :
    let after := attemptRenewal manager library nowMs rid sent state
    after.files = state.files ∧ after.phase = state.phase ∧ after.delivering = state.delivering ∧
      after.cert.responseReady = state.cert.responseReady ∧
      (after.cert.st = .waiting ∧ sent = true ∨ after.cert.st = state.cert.st) := by
  simp only [attemptRenewal]
  split
  · exact ⟨rfl, rfl, rfl, rfl, .inr rfl⟩
  · exact ⟨rfl, rfl, rfl, rfl, .inr rfl⟩
  · split
    next isSent => exact ⟨rfl, rfl, rfl, rfl, .inl ⟨rfl, isSent⟩⟩
    next => exact ⟨rfl, rfl, rfl, rfl, .inr rfl⟩

theorem SlotMatches.step {event : RenewalEvent} (slot : SlotMatches library state)
    (timely : TimelyResponses library state event)
    (stepped : renewalStep manager library state event = some later) :
    SlotMatches library later := by
  cases event with
  | storePayload payload =>
      rw [renewalStep, Option.ite_none_right_eq_some, Option.some.injEq] at stepped
      obtain ⟨_, rfl⟩ := stepped
      exact ⟨slot.waits, fun waiting _ => timely waiting⟩
  | setReady =>
      rw [renewalStep, Option.ite_none_right_eq_some, Option.some.injEq] at stepped
      obtain ⟨⟨_, delivering⟩, rfl⟩ := stepped
      exact ⟨slot.waits, fun waiting _ => slot.matched waiting (.inr (.inl delivering))⟩
  | attempt nowMs rid sent =>
      rw [renewalStep, Option.ite_none_right_eq_some, Option.some.injEq] at stepped
      obtain ⟨⟨polling, _, idle, _⟩, rfl⟩ := stepped
      obtain ⟨_, phase, delivering, ready, st⟩ :=
        attemptRenewal_cases manager library nowMs rid sent state
      refine ⟨?_, ?_⟩
      · rw [phase, polling]
        rintro (impossible | impossible) <;> cases impossible
      · intro waiting
        rw [phase, polling, delivering, ready]
        rcases st with ⟨_, isSent⟩ | same
        · rw [(timely isSent).1, (timely isSent).2]
          rintro (impossible | impossible | impossible) <;> cases impossible
        · rw [same, idle] at waiting
          cases waiting
  | exchangeReady =>
      rw [renewalStep, Option.ite_none_right_eq_some, Option.some.injEq] at stepped
      obtain ⟨⟨_, _, waiting⟩, rfl⟩ := stepped
      refine ⟨fun _ => waiting, fun _ filled => ?_⟩
      cases ready : state.cert.responseReady with
      | true => exact slot.matched waiting (.inl ready)
      | false =>
          rcases filled with impossible | delivering | taken
          · cases impossible
          · exact slot.matched waiting (.inr (.inl delivering))
          · simp [ready] at taken
  | takeResponse nowMs env reloaded =>
      rw [renewalStep, Option.ite_none_right_eq_some, Option.some.injEq] at stepped
      obtain ⟨taken, rfl⟩ := stepped
      obtain ⟨payload, rid, ⟨idle, polling⟩ | ⟨same, stopped⟩⟩ :=
        consumeResponse_cases manager library nowMs env reloaded state
      · refine ⟨?_, fun waiting => ?_⟩
        · rw [polling]
          rintro (impossible | impossible) <;> cases impossible
        · rw [idle] at waiting
          cases waiting
      · refine ⟨?_, fun _ _ => ?_⟩
        · rw [stopped]
          rintro (impossible | impossible) <;> cases impossible
        · rw [payload, rid]
          exact slot.matched (slot.waits (.inl taken)) (.inr (.inr taken))
  | checkDeadline nowMs =>
      rw [renewalStep, Option.ite_none_right_eq_some, Option.some.injEq] at stepped
      obtain ⟨notReady, rfl⟩ := stepped
      unfold expireRequest
      split
      · refine ⟨?_, fun waiting => nomatch waiting⟩
        rintro (impossible | impossible) <;> cases impossible
      · refine ⟨?_, fun waiting filled => ?_⟩
        · rintro (impossible | impossible) <;> cases impossible
        · rcases filled with ready | delivering | impossible
          · exact slot.matched waiting (.inl ready)
          · exact slot.matched waiting (.inr (.inl delivering))
          · cases impossible

/-- Only a response or the deadline ends a wait, and only a response touches the files. -/
theorem renewalStep_cases {event : RenewalEvent}
    (stepped : renewalStep manager library state event = some later) :
    (∃ nowMs env reloaded, event = .takeResponse nowMs env reloaded ∧ state.phase = .taken) ∨
    later.files = state.files ∧ (state.cert.st = .waiting → later.cert.st = .idle →
      ∃ nowMs, event = .checkDeadline nowMs ∧ state.cert.deadlineMs < nowMs) := by
  cases event with
  | storePayload payload =>
      rw [renewalStep, Option.ite_none_right_eq_some, Option.some.injEq] at stepped
      obtain ⟨_, rfl⟩ := stepped
      exact .inr ⟨rfl, fun waiting idle => nomatch waiting.symm.trans idle⟩
  | setReady =>
      rw [renewalStep, Option.ite_none_right_eq_some, Option.some.injEq] at stepped
      obtain ⟨_, rfl⟩ := stepped
      exact .inr ⟨rfl, fun waiting idle => nomatch waiting.symm.trans idle⟩
  | attempt nowMs rid sent =>
      rw [renewalStep, Option.ite_none_right_eq_some, Option.some.injEq] at stepped
      obtain ⟨⟨_, _, idle, _⟩, rfl⟩ := stepped
      exact .inr ⟨(attemptRenewal_cases manager library nowMs rid sent state).1,
        fun waiting _ => nomatch waiting.symm.trans idle⟩
  | exchangeReady =>
      rw [renewalStep, Option.ite_none_right_eq_some, Option.some.injEq] at stepped
      obtain ⟨_, rfl⟩ := stepped
      exact .inr ⟨rfl, fun waiting idle => nomatch waiting.symm.trans idle⟩
  | takeResponse nowMs env reloaded =>
      rw [renewalStep, Option.ite_none_right_eq_some, Option.some.injEq] at stepped
      exact .inl ⟨nowMs, env, reloaded, rfl, stepped.1⟩
  | checkDeadline nowMs =>
      rw [renewalStep, Option.ite_none_right_eq_some, Option.some.injEq] at stepped
      obtain ⟨_, rfl⟩ := stepped
      unfold expireRequest
      split
      next late => exact .inr ⟨rfl, fun _ _ => ⟨nowMs, rfl, late⟩⟩
      next => exact .inr ⟨rfl, fun waiting idle => nomatch waiting.symm.trans idle⟩

theorem onlyAnswers_step {event : RenewalEvent} (slot : SlotMatches library state)
    (stepped : renewalStep manager library state event = some later) :
    OnlyAnswers library ⟨state, event, later⟩ := by
  have answers : state.phase = .taken → AnswersOutstanding library state := fun taken =>
    ⟨taken, slot.matched (slot.waits (.inl taken)) (.inr (.inr taken))⟩
  have consumed : ∀ nowMs env reloaded, event = .takeResponse nowMs env reloaded →
      AnswersOutstanding library state := by
    rintro nowMs env reloaded rfl
    rw [renewalStep, Option.ite_none_right_eq_some] at stepped
    exact answers stepped.1
  rcases renewalStep_cases stepped with ⟨_, _, _, _, taken⟩ | ⟨files, ending⟩
  · exact ⟨consumed, fun _ _ => .inr (answers taken), fun _ => answers taken,
      fun _ _ _ same _ => consumed _ _ _ same⟩
  · exact ⟨consumed, fun waiting idle => .inl (ending waiting idle),
      fun changed => absurd files changed, fun _ _ _ same _ => consumed _ _ _ same⟩

end Renewals

/-- In every run whose responses are timely, only answers to the outstanding request end
the wait, replace the certificate or put the next attempt off. -/
theorem renewal_onlyAnswers_of_timely (manager : CertManager) (library : CertLibrary)
    (files : CertFiles) (last : Renewal) (transitions : List (Transition Renewal RenewalEvent))
    (run : Execution (renewalStep manager library) (Renewal.init files) transitions last)
    (timely : ∀ transition ∈ transitions,
      TimelyResponses library transition.before transition.event) :
    ∀ transition ∈ transitions, OnlyAnswers library transition :=
  run.forall_transitions (fun slot careful stepped => slot.step careful stepped)
    (fun slot _ stepped => onlyAnswers_step slot stepped) (slotMatches_init files) timely

/-! A late response. -/

/-- A response with a certificate, as the parser reads it. -/
def responseSample (rid : String) : Value :=
  .object [("request_id", .string rid), ("rc", .unsigned 0),
    ("paras", .object [("cert_pem", .string "PEM")])]

/-- Payloads that name their request and nothing else stand for full responses. -/
def certLibrarySample : CertLibrary where
  parse payload :=
    if payload = utf8 "r1" then .ok (responseSample "r1")
    else if payload = utf8 "r2" then .ok (responseSample "r2")
    else .error []
  readCert _ := some (0, 3)

def certFilesSample : CertFiles := ⟨some [1], none, none⟩

def answeredRun : List RenewalEvent :=
  [.attempt 3000 "r1" true, .storePayload (utf8 "r1"), .setReady, .exchangeReady,
    .takeResponse 4000 (fun _ => .none) true]

theorem renewal_onlyAnswers_sample :
    ∃ transitions last,
      execute (renewalStep ⟨"cert.pem"⟩ certLibrarySample) (Renewal.init certFilesSample)
        answeredRun = some (transitions, last) ∧
      last.files.certificate = some (utf8 "PEM") ∧
      ∀ transition ∈ transitions, OnlyAnswers certLibrarySample transition := by
  refine ⟨_, _, rfl, rfl, renewal_onlyAnswers_of_timely ⟨"cert.pem"⟩ certLibrarySample certFilesSample
    _ _ (execution_of_execute (show execute _ _ answeredRun = _ from rfl)) ?_⟩
  simp only [List.forall_mem_cons]
  exact ⟨fun _ => ⟨rfl, rfl⟩, fun _ => rfl, trivial, trivial, trivial, fun _ none => nomatch none⟩

/-- The response to the first request comes after its deadline. -/
def lateRun : List RenewalEvent :=
  [.attempt 3000 "r1" true, .exchangeReady, .checkDeadline 33001, .storePayload (utf8 "r1"),
    .setReady, .attempt 43001 "r2" true, .exchangeReady,
    .takeResponse 43002 (fun _ => .none) true]

/-- It ends the wait for the second one and puts the next attempt off by a day. -/
theorem renewal_takes_late_response :
    ∃ transitions last,
      Execution (renewalStep ⟨"cert.pem"⟩ certLibrarySample) (Renewal.init certFilesSample)
        transitions last ∧
      ∃ transition ∈ transitions, ¬ OnlyAnswers certLibrarySample transition ∧
        transition.before.cert.st = .waiting ∧ transition.after.cert.st = .idle ∧
        transition.before.cert.rid = "r2" ∧
        requestIdOf certLibrarySample transition.before.cert.pendingPayload = some "r1" ∧
        transition.after.cert.nextAttemptMs = 43002 + 24 * 3600 * 1000 := by
  refine ⟨_, _, execution_of_execute (show execute _ _ lateRun = _ from rfl), _,
    List.getLast_mem (List.cons_ne_nil _ _), ?_, rfl, rfl, rfl, rfl, rfl⟩
  intro only
  have named := (only.consumed 43002 (fun _ => .none) true rfl).2
  exact absurd named (by decide)

end Idsm.Managerd
