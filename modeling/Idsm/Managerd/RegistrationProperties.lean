import Idsm.Managerd.RegistrationLoop

/-! Where the credentials come from that the loop saves and hands on. The shared record
has no owner: a second response between acceptance and reset spoils it. -/

set_option autoImplicit false

namespace Idsm.Managerd

open Idsm.Foundation
open Idsm.Json (Value)

section Sources

variable (parse : List UInt8 → Except (List UInt8) Value)

abbrev RegistrationPast := List (Transition Registration RegistrationEvent)

/-- A response with these parameters came while its request was outstanding. -/
def Answered (past : RegistrationPast) (paras : Value) : Prop :=
  ∃ transition ∈ past, ∃ payload resp, transition.event = .deliver payload ∧
    transition.before.state = .waiting ∧ parse payload = .ok resp ∧
    initResponseParas transition.before.requestId resp = .ok paras

/-- A complete record of one response to an outstanding request. -/
structure Genuine (past : RegistrationPast) (record : Credentials) : Prop where
  complete : record.complete
  source : ∃ paras, Answered parse past paras ∧ textAt paras "client_id" = .ok record.clientId ∧
    textAt paras "token" = .ok record.token ∧
    paras.valueOr "token_expire" 0 Value.getLongLong = .ok record.tokenExpire

/-- A step saves and hands on genuine records only, and changes neither the file nor the
uploader otherwise. -/
structure OnlyGenuine (past : RegistrationPast)
    (transition : Transition Registration RegistrationEvent) : Prop where
  saved : ∀ env, transition.event = .save env → Genuine parse past transition.before.pending
  handed : ∀ reconnected, transition.event = .updateCredentials reconnected →
    Genuine parse past transition.before.pending
  stored : transition.after.files.stored ≠ transition.before.files.stored →
    (∃ env, transition.event = .save env) ∧
      transition.after.files.stored = some (credentialText transition.before.pending)
  given : transition.after.uploader ≠ transition.before.uploader →
    (∃ reconnected, transition.event = .updateCredentials reconnected) ∧
      transition.after.uploader =
        some (transition.before.pending.clientId, transition.before.pending.token)

/-- The loop has taken a response and not yet emptied the record. -/
def LoopPosition.Applying (position : LoopPosition) : Prop :=
  position ≠ .exchange ∧ position ≠ .schedule

/-- No response waits for the loop and the loop applies none. -/
def Registration.Unoccupied (reg : Registration) : Prop :=
  reg.responseReady = false ∧ ¬ reg.loop.Applying

/-- A response that passes the checks comes while a request is outstanding, when none
waits for the loop and the loop applies none. -/
def SingleResponse (reg : Registration) : RegistrationEvent → Prop
  | .deliver payload => ∀ resp paras, parse payload = .ok resp →
      initResponseParas reg.requestId resp = .ok paras → reg.state = .waiting ∧ reg.Unoccupied
  | _ => True

/-- What the network thread has written so far belongs to one answer. -/
def Writing (past : RegistrationPast) (reg : Registration) : Prop :=
  match reg.network with
  | .outside => True
  | .clientId paras => reg.Unoccupied ∧ Answered parse past paras
  | .token paras => reg.Unoccupied ∧ Answered parse past paras ∧
      textAt paras "client_id" = .ok reg.pending.clientId
  | .tokenExpire paras => reg.Unoccupied ∧ Answered parse past paras ∧
      textAt paras "client_id" = .ok reg.pending.clientId ∧
      textAt paras "token" = .ok reg.pending.token
  | .emptyCheck => reg.Unoccupied ∧ (reg.pending.complete → Genuine parse past reg.pending)
  | .accepted => reg.Unoccupied ∧ Genuine parse past reg.pending

structure Tracked (past : RegistrationPast) (reg : Registration) : Prop where
  writing : Writing parse past reg
  ready : reg.responseReady = true →
    reg.network = .outside ∧ ¬ reg.loop.Applying ∧ Genuine parse past reg.pending
  applying : reg.loop.Applying → reg.network = .outside ∧
    (reg.loop = .save ∨ reg.loop = .updateCredentials → Genuine parse past reg.pending)

end Sources

section Steps

variable {parse : List UInt8 → Except (List UInt8) Value} {past : RegistrationPast}
  {reg later : Registration} {last : Transition Registration RegistrationEvent}

theorem Answered.mono {paras : Value} (answered : Answered parse past paras) :
    Answered parse (past ++ [last]) paras := by
  obtain ⟨transition, member, found⟩ := answered
  exact ⟨transition, List.mem_append_left _ member, found⟩

theorem Genuine.mono {record : Credentials} (genuine : Genuine parse past record) :
    Genuine parse (past ++ [last]) record := by
  obtain ⟨complete, paras, answered, fields⟩ := genuine
  exact ⟨complete, paras, answered.mono, fields⟩

theorem Writing.mono (writing : Writing parse past reg) : Writing parse (past ++ [last]) reg := by
  unfold Writing at writing ⊢
  split at writing
  · trivial
  · exact ⟨writing.1, writing.2.mono⟩
  · exact ⟨writing.1, writing.2.1.mono, writing.2.2⟩
  · exact ⟨writing.1, writing.2.1.mono, writing.2.2⟩
  · exact ⟨writing.1, fun complete => (writing.2 complete).mono⟩
  · exact ⟨writing.1, writing.2.mono⟩

theorem Tracked.mono (tracked : Tracked parse past reg) : Tracked parse (past ++ [last]) reg where
  writing := tracked.writing.mono
  ready := fun isReady => ⟨(tracked.ready isReady).1, (tracked.ready isReady).2.1,
    (tracked.ready isReady).2.2.mono⟩
  applying := fun applying => ⟨(tracked.applying applying).1,
    fun early => ((tracked.applying applying).2 early).mono⟩

theorem tracked_init (state : RegState) (creds : Credentials) (files : CredentialFiles) :
    Tracked parse [] (Registration.init state creds files) where
  writing := trivial
  ready := fun impossible => nomatch impossible
  applying := fun applying => absurd rfl applying.1

theorem tracked_of_unoccupied (quiet : reg.Unoccupied) (writing : Writing parse past reg) :
    Tracked parse past reg where
  writing := writing
  ready := fun isReady => nomatch quiet.1.symm.trans isReady
  applying := fun applying => absurd applying quiet.2

theorem Tracked.deliver {payload : List UInt8} (tracked : Tracked parse past reg)
    (single : SingleResponse parse reg (.deliver payload)) :
    Tracked parse (past ++ [⟨reg, .deliver payload, beginResponse parse payload reg⟩])
      (beginResponse parse payload reg) := by
  unfold beginResponse
  split
  next => exact tracked.mono
  next resp parsed =>
    split
    next => exact tracked.mono
    next => exact ⟨tracked.mono.writing, tracked.mono.ready, tracked.mono.applying⟩
    next paras checked =>
      obtain ⟨waiting, quiet⟩ := single resp paras parsed checked
      exact tracked_of_unoccupied quiet ⟨quiet, _, List.mem_append_right _ List.mem_cons_self,
        payload, resp, rfl, waiting, parsed, checked⟩

/-- A write keeps the record tracked when the record it leaves is. -/
theorem Tracked.writePending {written : Except Json.Error Credentials} {next : ParsePosition}
    (tracked : Tracked parse past reg) (quiet : reg.Unoccupied)
    (writes : ∀ pending, written = .ok pending →
      Writing parse past { reg with pending, network := next }) :
    Tracked parse past (writePending written next reg) := by
  unfold Managerd.writePending
  split
  next => exact ⟨tracked.writing, tracked.ready, tracked.applying⟩
  next pending => exact tracked_of_unoccupied quiet (writes pending rfl)

theorem Tracked.advance (tracked : Tracked parse past reg)
    (advanced : advanceResponse reg = some later) : Tracked parse past later := by
  have writing := tracked.writing
  unfold Writing at writing
  unfold advanceResponse at advanced
  cases position : reg.network with
  | outside =>
      rw [position] at advanced
      cases advanced
  | clientId paras =>
      rw [position] at writing advanced
      cases advanced
      obtain ⟨quiet, answered⟩ := writing
      refine tracked.writePending quiet fun pending written => ?_
      rw [writeClientId, bind_eq_ok] at written
      obtain ⟨text, read, rest⟩ := written
      cases rest
      exact ⟨quiet, answered, read⟩
  | token paras =>
      rw [position] at writing advanced
      cases advanced
      obtain ⟨quiet, answered, named⟩ := writing
      refine tracked.writePending quiet fun pending written => ?_
      rw [writeToken, bind_eq_ok] at written
      obtain ⟨text, read, rest⟩ := written
      cases rest
      exact ⟨quiet, answered, named, read⟩
  | tokenExpire paras =>
      rw [position] at writing advanced
      cases advanced
      obtain ⟨quiet, answered, named, signed⟩ := writing
      refine tracked.writePending quiet fun pending written => ?_
      rw [writeTokenExpire, bind_eq_ok] at written
      obtain ⟨number, read, rest⟩ := written
      cases rest
      exact ⟨quiet, fun complete => ⟨complete, paras, answered, named, signed, read⟩⟩
  | emptyCheck =>
      rw [position] at writing advanced
      cases advanced
      obtain ⟨quiet, genuine⟩ := writing
      refine tracked_of_unoccupied quiet ?_
      by_cases complete : reg.pending.complete
      · simp only [Writing, if_pos complete]
        exact ⟨quiet, genuine complete⟩
      · simp only [Writing, if_neg complete]
  | accepted =>
      rw [position] at writing advanced
      cases advanced
      obtain ⟨quiet, genuine⟩ := writing
      exact ⟨trivial, fun _ => ⟨rfl, quiet.2, genuine⟩, fun applying => absurd applying quiet.2⟩

/-- While the loop applies a response, the network thread is outside. -/
theorem tracked_of_applying (outside : reg.network = .outside) (notReady : reg.responseReady = false)
    (genuine : reg.loop = .save ∨ reg.loop = .updateCredentials → Genuine parse past reg.pending) :
    Tracked parse past reg where
  writing := by
    unfold Writing
    rw [outside]
    trivial
  ready := fun isReady => nomatch notReady.symm.trans isReady
  applying := fun _ => ⟨outside, genuine⟩

theorem Tracked.notReady (tracked : Tracked parse past reg) (applying : reg.loop.Applying) :
    reg.responseReady = false := by
  cases ready : reg.responseReady with
  | false => rfl
  | true => exact absurd applying (tracked.ready ready).2.1

/-- A step of the loop that applies no response moves past the record. -/
theorem Tracked.move (tracked : Tracked parse past reg) (idle : ¬ later.loop.Applying)
    (network : later.network = reg.network)
    (pending : later.pending = reg.pending) (ready : later.responseReady = reg.responseReady) :
    Tracked parse past later := by
  cases waits : reg.responseReady with
  | true =>
      obtain ⟨outside, _, genuine⟩ := tracked.ready waits
      refine ⟨?_, fun _ => ⟨network.trans outside, idle, pending ▸ genuine⟩,
        fun applying => absurd applying idle⟩
      unfold Writing
      rw [network, outside]
      trivial
  | false =>
      have quiet : later.Unoccupied := ⟨ready.trans waits, idle⟩
      refine tracked_of_unoccupied quiet ?_
      have writing := tracked.writing
      unfold Writing at writing ⊢
      rw [network, pending]
      split at writing
      · trivial
      · exact ⟨quiet, writing.2⟩
      · exact ⟨quiet, writing.2⟩
      · exact ⟨quiet, writing.2⟩
      · exact ⟨quiet, writing.2⟩
      · exact ⟨quiet, writing.2⟩

/-- The save returns with the record's text stored, and leaves the file alone otherwise. -/
theorem saveCredentials_triple (env : SaveStep → Fault) (c : Credentials) (files : CredentialFiles) :
    Program.Triple (· = files) (saveCredentials env c)
      (fun _ later => later.stored = some (credentialText c))
      (fun _ later => later.stored = files.stored) (fun later => later.stored = files.stored) := by
  unfold saveCredentials
  refine .bind (fun written later => later.stored = files.stored ∧
    (written = true → later.tmp = some (credentialText c))) ?_ fun written => ?_
  · refine .step ?_ ?_ ?_
    · rintro _ _ rfl
      exact ⟨rfl, fun _ => rfl⟩
    · rintro _ _ _ rfl
      exact ⟨rfl, fun impossible => nomatch impossible⟩
    · rintro _ _ _ rfl
      rfl
  refine .bind (fun _ later => later.stored = files.stored ∧
    later.tmp = some (credentialText c)) ?_ fun _ => ?_
  · refine .ofExcept (fun proof passed later holds => ?_) fun _ _ _ holds => holds.1
    exact ⟨holds.1, holds.2 (require_eq_ok.1 passed)⟩
  refine .bind (fun renamed later => (renamed = false → later.stored = files.stored) ∧
    (renamed = true → later.stored = some (credentialText c))) ?_ fun renamed => ?_
  · refine .step ?_ ?_ ?_
    · exact fun _ later holds => ⟨(fun impossible => nomatch impossible), fun _ => holds.2⟩
    · exact fun _ _ later holds => ⟨fun _ => holds.1, fun impossible => nomatch impossible⟩
    · exact fun _ _ later holds => holds.1
  refine .bind (fun _ later => later.stored = some (credentialText c)) ?_ fun _ => ?_
  · refine .ofExcept (fun proof passed later holds => holds.2 (require_eq_ok.1 passed)) ?_
    intro stop failed later holds
    cases renamed with
    | false => exact holds.1 rfl
    | true =>
        rw [require_of rfl] at failed
        cases failed
  · exact .pure fun _ holds => holds

theorem savePending_cases (env : SaveStep → Fault) (reg : Registration) :
    let after := savePending env reg
    after.pending = reg.pending ∧ after.network = reg.network ∧ after.uploader = reg.uploader ∧
      after.responseReady = reg.responseReady ∧
      (after.files.stored = reg.files.stored ∨
        after.files.stored = some (credentialText reg.pending)) := by
  have reached := saveCredentials_triple env reg.pending reg.files reg.files rfl
  simp only [savePending]
  cases ended : (saveCredentials env reg.pending).run reg.files with
  | returned value files =>
      rw [ended] at reached
      exact ⟨rfl, rfl, rfl, rfl, .inr reached⟩
  | threw error files =>
      rw [ended] at reached
      exact ⟨rfl, rfl, rfl, rfl, .inl reached⟩
  | crashed files =>
      rw [ended] at reached
      exact ⟨rfl, rfl, rfl, rfl, .inl reached⟩

theorem tracked_loopStep {event : RegistrationEvent} (tracked : Tracked parse past reg)
    (single : SingleResponse parse reg event) (stepped : loopStep parse reg event = some later) :
    Tracked parse (past ++ [⟨reg, event, later⟩]) later := by
  have exchanging : ¬ LoopPosition.exchange.Applying := fun applying => applying.1 rfl
  have scheduling : ¬ LoopPosition.schedule.Applying := fun applying => applying.2 rfl
  cases event with
  | deliver payload =>
      rw [loopStep] at stepped
      split at stepped
      next =>
        cases stepped
        exact tracked.deliver single
      next => cases stepped
  | advance => exact (tracked.advance stepped).mono
  | exchangeReady =>
      rw [loopStep, Option.ite_none_right_eq_some, Option.some.injEq] at stepped
      obtain ⟨_, rfl⟩ := stepped
      cases ready : reg.responseReady with
      | true =>
          obtain ⟨outside, _, genuine⟩ := tracked.ready ready
          exact tracked_of_applying outside rfl fun _ => genuine.mono
      | false =>
          exact tracked.mono.move scheduling rfl rfl ready.symm
  | save env =>
      rw [loopStep, Option.ite_none_right_eq_some, Option.some.injEq] at stepped
      obtain ⟨here, rfl⟩ := stepped
      have applying : reg.loop.Applying := here ▸ ⟨nofun, nofun⟩
      obtain ⟨outside, genuine⟩ := tracked.applying applying
      obtain ⟨pending, network, _, ready, _⟩ := savePending_cases env reg
      refine tracked_of_applying (network.trans outside) (ready.trans (tracked.notReady applying))
        fun _ => ?_
      rw [pending]
      exact (genuine (.inl here)).mono
  | updateCredentials reconnected =>
      rw [loopStep, Option.ite_none_right_eq_some, Option.some.injEq] at stepped
      obtain ⟨here, rfl⟩ := stepped
      have applying : reg.loop.Applying := here ▸ ⟨nofun, nofun⟩
      obtain ⟨outside, genuine⟩ := tracked.applying applying
      exact tracked_of_applying outside (tracked.notReady applying) fun _ =>
        (genuine (.inr here)).mono
  | copy =>
      rw [loopStep, Option.ite_none_right_eq_some, Option.some.injEq] at stepped
      obtain ⟨here, rfl⟩ := stepped
      have applying : reg.loop.Applying := here ▸ ⟨nofun, nofun⟩
      exact tracked_of_applying (tracked.applying applying).1 (tracked.notReady applying)
        fun early => by rcases early with impossible | impossible <;> cases impossible
  | fail nowMs =>
      rw [loopStep, Option.ite_none_right_eq_some, Option.some.injEq] at stepped
      obtain ⟨here, rfl⟩ := stepped
      have applying : reg.loop.Applying := here ▸ ⟨nofun, nofun⟩
      exact tracked_of_applying (tracked.applying applying).1 (tracked.notReady applying)
        fun early => by rcases early with impossible | impossible <;> cases impossible
  | reset =>
      rw [loopStep, Option.ite_none_right_eq_some, Option.some.injEq] at stepped
      obtain ⟨here, rfl⟩ := stepped
      have applying : reg.loop.Applying := here ▸ ⟨nofun, nofun⟩
      exact tracked_of_applying (tracked.applying applying).1 (tracked.notReady applying)
        fun early => by rcases early with impossible | impossible <;> cases impossible
  | schedule nowMs connected rid sent =>
      rw [loopStep, Option.ite_none_right_eq_some, Option.some.injEq] at stepped
      obtain ⟨_, rfl⟩ := stepped
      unfold scheduleRequest
      split
      · split
        · exact tracked.mono.move exchanging rfl rfl rfl
        · exact tracked.mono.move exchanging rfl rfl rfl
      · split
        · exact tracked.mono.move exchanging rfl rfl rfl
        · exact tracked.mono.move exchanging rfl rfl rfl

theorem advanceResponse_frame (advanced : advanceResponse reg = some later) :
    later.files = reg.files ∧ later.uploader = reg.uploader := by
  have written : ∀ result next, (writePending result next reg).files = reg.files ∧
      (writePending result next reg).uploader = reg.uploader := by
    intro result next
    unfold writePending
    split
    · exact ⟨rfl, rfl⟩
    · exact ⟨rfl, rfl⟩
  unfold advanceResponse at advanced
  split at advanced
  · cases advanced
  · cases advanced
    exact written _ _
  · cases advanced
    exact written _ _
  · cases advanced
    exact written _ _
  · cases advanced
    exact ⟨rfl, rfl⟩
  · cases advanced
    exact ⟨rfl, rfl⟩

/-- What the steps other than the save and the hand-over leave alone. -/
theorem loopStep_frame {event : RegistrationEvent} (stepped : loopStep parse reg event = some later) :
    (∃ env, event = .save env ∧ reg.loop = .save ∧ later = savePending env reg) ∨
    (∃ reconnected, event = .updateCredentials reconnected ∧ reg.loop = .updateCredentials ∧
      later.files = reg.files ∧
      later.uploader = some (reg.pending.clientId, reg.pending.token)) ∨
    later.files = reg.files ∧ later.uploader = reg.uploader := by
  cases event with
  | deliver payload =>
      rw [loopStep] at stepped
      split at stepped
      next =>
        cases stepped
        unfold beginResponse
        split
        · exact .inr (.inr ⟨rfl, rfl⟩)
        · split
          · exact .inr (.inr ⟨rfl, rfl⟩)
          · exact .inr (.inr ⟨rfl, rfl⟩)
          · exact .inr (.inr ⟨rfl, rfl⟩)
      next => cases stepped
  | advance => exact .inr (.inr (advanceResponse_frame stepped))
  | exchangeReady =>
      rw [loopStep, Option.ite_none_right_eq_some, Option.some.injEq] at stepped
      obtain ⟨_, rfl⟩ := stepped
      exact .inr (.inr ⟨rfl, rfl⟩)
  | save env =>
      rw [loopStep, Option.ite_none_right_eq_some, Option.some.injEq] at stepped
      exact .inl ⟨env, rfl, stepped.1, stepped.2.symm⟩
  | updateCredentials reconnected =>
      rw [loopStep, Option.ite_none_right_eq_some, Option.some.injEq] at stepped
      obtain ⟨here, rfl⟩ := stepped
      exact .inr (.inl ⟨reconnected, rfl, here, rfl, rfl⟩)
  | copy =>
      rw [loopStep, Option.ite_none_right_eq_some, Option.some.injEq] at stepped
      obtain ⟨_, rfl⟩ := stepped
      exact .inr (.inr ⟨rfl, rfl⟩)
  | fail nowMs =>
      rw [loopStep, Option.ite_none_right_eq_some, Option.some.injEq] at stepped
      obtain ⟨_, rfl⟩ := stepped
      exact .inr (.inr ⟨rfl, rfl⟩)
  | reset =>
      rw [loopStep, Option.ite_none_right_eq_some, Option.some.injEq] at stepped
      obtain ⟨_, rfl⟩ := stepped
      exact .inr (.inr ⟨rfl, rfl⟩)
  | schedule nowMs connected rid sent =>
      rw [loopStep, Option.ite_none_right_eq_some, Option.some.injEq] at stepped
      obtain ⟨_, rfl⟩ := stepped
      unfold scheduleRequest
      split
      · split
        · exact .inr (.inr ⟨rfl, rfl⟩)
        · exact .inr (.inr ⟨rfl, rfl⟩)
      · split
        · exact .inr (.inr ⟨rfl, rfl⟩)
        · exact .inr (.inr ⟨rfl, rfl⟩)

theorem onlyGenuine_step {event : RegistrationEvent} (tracked : Tracked parse past reg)
    (stepped : loopStep parse reg event = some later) :
    OnlyGenuine parse past ⟨reg, event, later⟩ := by
  have saving : reg.loop = .save → Genuine parse past reg.pending := fun here =>
    (tracked.applying (here ▸ ⟨nofun, nofun⟩)).2 (.inl here)
  have handing : reg.loop = .updateCredentials → Genuine parse past reg.pending := fun here =>
    (tracked.applying (here ▸ ⟨nofun, nofun⟩)).2 (.inr here)
  refine ⟨?_, ?_, ?_, ?_⟩
  · rintro env rfl
    rw [loopStep, Option.ite_none_right_eq_some] at stepped
    exact saving stepped.1
  · rintro reconnected rfl
    rw [loopStep, Option.ite_none_right_eq_some] at stepped
    exact handing stepped.1
  · intro changed
    rcases loopStep_frame stepped with ⟨env, rfl, _, rfl⟩ | ⟨_, _, _, same, _⟩ | ⟨same, _⟩
    · rcases (savePending_cases env reg).2.2.2.2 with same | text
      · exact absurd same changed
      · exact ⟨⟨env, rfl⟩, text⟩
    · exact absurd (congrArg CredentialFiles.stored same) changed
    · exact absurd (congrArg CredentialFiles.stored same) changed
  · intro changed
    rcases loopStep_frame stepped with ⟨env, rfl, _, rfl⟩ | ⟨reconnected, rfl, _, _, given⟩ | ⟨_, same⟩
    · exact absurd (savePending_cases env reg).2.2.1 changed
    · exact ⟨⟨reconnected, rfl⟩, given⟩
    · exact absurd same changed

end Steps

/-- In every run whose responses come singly, only complete records of one response to an
outstanding request are saved or handed to the uploader. -/
theorem registration_onlyGenuine_of_single (parse : List UInt8 → Except (List UInt8) Value)
    (state : RegState) (creds : Credentials) (files : CredentialFiles) (last : Registration)
    (transitions : List (Transition Registration RegistrationEvent))
    (run : Execution (registrationStep parse) (Registration.init state creds files) transitions last)
    (single : ∀ transition ∈ transitions,
      SingleResponse parse transition.before transition.event) :
    ∀ past transition rest, transitions = past ++ transition :: rest →
      OnlyGenuine parse past transition := by
  have taken : ∀ {reg event later}, registrationStep parse reg event = some later →
      loopStep parse reg event = some later := by
    intro reg event later stepped
    rw [registrationStep, Option.ite_none_right_eq_some] at stepped
    exact stepped.2
  exact run.forall_history (fun tracked careful stepped => tracked_loopStep tracked careful (taken stepped))
    (fun tracked _ stepped => onlyGenuine_step tracked (taken stepped))
    (tracked_init state creds files) single

/-! A response delivered twice. -/

/-- The parser on a payload that stands for a full response. -/
def initParseSample (payload : List UInt8) : Except (List UInt8) Value :=
  if payload = utf8 "r1" then
    .ok (.object [("rc", .unsigned 0), ("rn", .string "register_response"),
      ("request_id", .string "r1"),
      ("paras", .object [("client_id", .string "client"), ("token", .string "secret")])])
  else .error []

def registrationSample : Registration := .init .needRegister .empty ⟨none, none⟩

/-- A response from its arrival to the flag. -/
def delivery : List RegistrationEvent :=
  [.deliver (utf8 "r1"), .advance, .advance, .advance, .advance, .advance]

def applyEvents : List RegistrationEvent :=
  [.save fun _ => .none, .updateCredentials true, .copy, .reset]

def singleRun : List RegistrationEvent :=
  [.exchangeReady, .schedule 0 true "r1" true] ++ delivery ++ [.exchangeReady] ++ applyEvents

theorem registration_onlyGenuine_sample :
    ∃ transitions last,
      execute (registrationStep initParseSample) registrationSample singleRun =
        some (transitions, last) ∧
      last.uploader = some ("client", "secret") ∧
      ∀ past transition rest, transitions = past ++ transition :: rest →
        OnlyGenuine initParseSample past transition := by
  refine ⟨_, _, rfl, rfl, registration_onlyGenuine_of_single initParseSample .needRegister .empty
    ⟨none, none⟩ _ _ (execution_of_execute (show execute _ _ singleRun = _ from rfl)) ?_⟩
  simp only [List.forall_mem_cons]
  refine ⟨trivial, trivial, fun _ _ _ _ => ⟨rfl, rfl, fun applying => applying.1 rfl⟩, trivial, trivial,
    trivial, trivial, trivial, trivial, trivial, trivial, trivial, trivial, fun _ none => nomatch none⟩

/-- The second copy comes while the loop applies the first. -/
def duplicateRun : List RegistrationEvent :=
  [.exchangeReady, .schedule 0 true "r1" true] ++ delivery ++ [.exchangeReady] ++ delivery ++
    applyEvents ++ [.schedule 1 true "r1" true, .exchangeReady, .save fun _ => .none]

/-- Then the loop saves the emptied record over the credentials. -/
theorem registration_saves_emptied_record :
    ∃ transitions last,
      Execution (registrationStep initParseSample) registrationSample transitions last ∧
      last.files.stored = some (credentialText .empty) ∧
      ∃ past transition rest, transitions = past ++ transition :: rest ∧
        ¬ OnlyGenuine initParseSample past transition := by
  refine ⟨_, _, execution_of_execute (show execute _ _ duplicateRun = _ from rfl), rfl, _, _, [],
    (List.dropLast_append_getLast (List.cons_ne_nil _ _)).symm, ?_⟩
  intro only
  exact (only.saved (fun _ => .none) rfl).complete.1 rfl

end Idsm.Managerd
